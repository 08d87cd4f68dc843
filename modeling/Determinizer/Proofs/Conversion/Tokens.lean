import Determinizer.Proofs.Conversion.Labelling
import Determinizer.Proofs.Conversion.Language
import Determinizer.Proofs.DFA.Tokens

/-! # Labels never collide

Every position has a label, a single word that no other position has: letters differ from each
other, numbered labels differ at every magnitude, and the letter `Q` differs from all numbered ones.
The states of a constructed automaton have the labels of their positions. So a look-up by label
finds the state that is meant, and in the text form a label is one word wherever it stands, whatever
the symbols are, also when unreachable states have been removed.
-/

namespace Determinizer

/-- Labels are those of the positions, tell states apart in every look-up, and are single words of
the text form, before and after pruning. -/
structure DFA.LabelsAreTokens (dfa : DFA) : Prop where
  labels_eq : dfa.labels.map some =
    (List.range dfa.states.length).map fun position : Nat => Label.ofInt? position
  labels_nodup : dfa.labels.Nodup
  labels_words : ∀ label ∈ dfa.labels, Text.IsWord label
  /-- The first state with a label is also the last one. -/
  found : ∀ state ∈ dfa.states, dfa.state? state.label = some state ∧
    (DFA.byLabel dfa.states)[state.label]? = some state
  written : ∃ text, dfa.toText? = some text ∧ dfa.LabelsStandIn text
  pruned : ∃ part text, dfa.prune.result = .ok part ∧ part.labels.Sublist dfa.labels ∧
    part.toText? = some text ∧ part.LabelsStandIn text

open SubsetConstruction

namespace SubsetConstruction

variable {nfa : NFA} {subsets : List Subset} {alphabet : List Symbol} {policy : Policy} {dfa : DFA}

theorem map_some_labels (made : nfa.overSubsets subsets alphabet policy = .ok dfa) :
    dfa.labels.map some =
      (List.range dfa.states.length).map fun position : Nat => Label.ofInt? position := by
  rw [labels_of_overSubsets made, List.map_map]
  exact List.map_congr_left fun position _ => (Label.ofInt?_natCast position).symm

theorem labelsAreTokens_of_overSubsets (made : nfa.overSubsets subsets alphabet policy = .ok dfa) :
    dfa.LabelsAreTokens := by
  have labelled := wellLabelled_of_overSubsets made
  have part := wellLabelled_reachablePart made
  refine
    { labels_eq := map_some_labels made
      labels_nodup := labelled.labels_nodup
      labels_words := labelled.labels_words
      found := fun state member => ⟨DFA.state?_label labelled.labels_nodup member, ?_⟩
      written := ?_
      pruned := ?_ }
  · rw [DFA.getElem?_byLabel, DFA.carrier?_label labelled.labels_nodup member]
  · obtain ⟨text, written⟩ := labelled.exists_toText?
    exact ⟨text, written, labelled.labelsStandIn written⟩
  · obtain ⟨text, written⟩ := part.exists_toText?
    exact ⟨dfa.reachablePart, text, (subsetAutomaton_of_overSubsets made).result_prune,
      DFA.labels_reachablePart_sublist dfa, written, part.labelsStandIn written⟩

end SubsetConstruction

namespace NFA

/-- Labels of different positions differ, every label is a single word, and the labels that the
construction gives to the states of an automaton are tokens of its text form. -/
theorem determinize_labelsAreTokens :
    (∀ first second : Int, 0 ≤ first → 0 ≤ second →
      Label.ofInt? first = Label.ofInt? second → first = second) ∧
    (∀ position : Int, 0 ≤ position → ∃ label, Label.ofInt? position = some label ∧
      label ≠ "" ∧ ∀ c ∈ label.toList, Text.isBlank c = false) ∧
    ∀ (nfa : NFA) (subsets : List Subset) (alphabet : List Symbol) (policy : Policy) (dfa : DFA),
      (nfa.determinize subsets alphabet policy).result = .ok dfa → dfa.LabelsAreTokens := by
  refine ⟨fun _ _ => Label.eq_of_ofInt?_eq, fun _ => Label.exists_ofInt?, ?_⟩
  intro nfa subsets alphabet policy dfa made
  rw [result_determinize] at made
  exact labelsAreTokens_of_overSubsets made

/-- The words whose fifth symbol from the end is `1`. -/
private def fifthFromEnd : NFA where
  states := ["s", "p5", "p4", "p3", "p2", "p1"]
  initial := "s"
  finals := ["p1"]
  edges := Table.ofList [(("s", "0"), {"s"}), (("s", "1"), NameSet.ofList ["s", "p5"]),
    (("p5", "0"), {"p4"}), (("p5", "1"), {"p4"}), (("p4", "0"), {"p3"}), (("p4", "1"), {"p3"}),
    (("p3", "0"), {"p2"}), (("p3", "1"), {"p2"}), (("p2", "0"), {"p1"}), (("p2", "1"), {"p1"})]
  sources_declared := by decide +kernel

/-- With 64 states, one is labelled `Q` and another `Q16`. -/
theorem determinize_labelsAreTokens_fifthFromEnd :
    Label.ofInt? 16 = some "Q" ∧ Label.ofInt? 42 = some "Q16" ∧
    Label.ofInt? 16 ≠ Label.ofInt? 42 ∧
    (∃ label, Label.ofInt? 1000000000000000000000000000000 = some label ∧
      label ≠ "" ∧ ∀ c ∈ label.toList, Text.isBlank c = false) ∧
    ∃ dfa, (fifthFromEnd.determinize (Subset.enumerate fifthFromEnd.states true)
        ["0", "1"] .total).result = .ok dfa ∧
      dfa.states.length = 64 ∧ dfa.LabelsAreTokens := by
  obtain ⟨distinct, words, tokens⟩ := determinize_labelsAreTokens
  have inside : ¬ fifthFromEnd.LeadsOutside ["0", "1"] := by decide +kernel
  have lacks : fifthFromEnd.LacksTransition ["0", "1"] := by decide +kernel
  have succeeds : ∃ dfa, fifthFromEnd.overSubsets (fifthFromEnd.subsets .total) ["0", "1"] .total =
      .ok dfa := exists_overSubsets_subsets (by decide) inside
  obtain ⟨dfa, made⟩ := succeeds
  have result := (result_determinize ..).trans made
  refine ⟨by decide, by decide, ?_, words _ (by decide), dfa, result, ?_, tokens _ _ _ _ _ result⟩
  · intro same
    exact absurd (distinct 16 42 (by decide) (by decide) same) (by decide)
  · rw [(labelsAll_of_overSubsets made).length_eq, if_pos lacks]
    decide

end NFA

end Determinizer
