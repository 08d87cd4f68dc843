import Determinizer.Proofs.DFA.ReadBack

/-! # Labels are tokens of the text form

Labels that are single words stay single words in the text form, whatever the symbols are: the
words on its lines are the labels, with the words of a symbol between the ends of a transition. The
heading is read as the automaton that has the labels for its states, so reading can fail only at the
line of a transition, and not at all if the symbols on transitions are single words too.
-/

namespace Determinizer.DFA

/-- The words on the line of a transition between labels that are single words. -/
def Transition.tokens (transition : Transition) : List String :=
  transition.source :: (Text.words transition.symbol ++ [transition.target])

/-- The labels of the automaton stand in the text as single words and are read as they are. -/
structure LabelsStandIn (dfa : DFA) (text : String) : Prop where
  /-- The first three lines list the labels, the initial one and the final ones. -/
  heading : ((Text.lines text).take 3).map Text.words = [dfa.labels, dfa.initial.toList, dfa.finals]
  /-- In all lines together, a label is one word wherever it stands. -/
  words_eq : (Text.lines text).flatMap Text.words =
    dfa.labels ++ dfa.initial.toList ++ dfa.finals ++ dfa.transitions.flatMap (·.tokens)
  /-- A transition has a line of its own unless its symbol holds a line feed. -/
  line_mem : ∀ transition ∈ dfa.transitions, '\n' ∉ transition.symbol.toList →
    transition.line ∈ Text.lines text ∧ Text.words transition.line = transition.tokens
  /-- Reading takes the labels for states and goes on with the lines after the heading. -/
  ofText_eq : ∀ strict, ∃ initial, dfa.initial = some initial ∧
    NFA.ofText strict text = NFA.readEdges strict (NFA.ofStates dfa.labels initial dfa.finals)
      ((((Text.lines text).drop 3).map Text.trim).zipIdx 4)
  /-- With single words for symbols, all of the automaton is read back. -/
  readsBack : (∀ transition ∈ dfa.transitions, Text.IsWord transition.symbol) →
    ∃ nfa, (∀ strict, NFA.ofText strict text = ⟨[], .ok nfa⟩) ∧ dfa.ReadsBackAs nfa

variable {dfa : DFA} {transition : Transition} {initial : Label} {text : String}

namespace WellLabelled

/-- The ends of a transition are the first and the last word of its line. -/
theorem words_line (labelled : dfa.WellLabelled) (member : transition ∈ dfa.transitions) :
    Text.words transition.line = transition.tokens := by
  have source := labelled.labels_words _ (source_mem_labels member)
  have target := labelled.labels_words _ (labelled.target_mem_labels member)
  rw [Transition.line_eq, Transition.tokens]
  refine (Text.words_intercalate_blank Text.isBlank_space _).trans ?_
  simp only [List.flatMap_cons, List.flatMap_nil, List.append_nil, source.words_eq,
    target.words_eq, List.singleton_append]

theorem words_lines_toText (labelled : dfa.WellLabelled) (initial_eq : dfa.initial = some initial)
    (written : dfa.toText? = some text) : (Text.lines text).flatMap Text.words =
      dfa.labels ++ [initial] ++ dfa.finals ++ dfa.transitions.flatMap (·.tokens) := by
  have onLines : ∀ transition ∈ dfa.transitions,
      (Text.lines transition.line).flatMap Text.words = transition.tokens := by
    intro transition member
    rw [Text.flatMap_words_lines, labelled.words_line member]
  have blank : Text.words "" = [] := rfl
  rw [labelled.lines_toText initial_eq written]
  simp only [List.flatMap_cons, List.flatMap_append, List.flatMap_nil, List.flatMap_assoc,
    Text.words_intercalate labelled.labels_words, Text.words_intercalate labelled.finals_words,
    (labelled.initial_isWord initial_eq).words_eq, blank, List.append_nil, List.append_assoc]
  rw [List.flatMap_congr onLines]

/-- The heading of the text form declares the labels. -/
theorem readHeader_eq (labelled : dfa.WellLabelled) (initial_eq : dfa.initial = some initial) :
    NFA.readHeader (Text.trim (" ".intercalate dfa.labels)) (Text.trim initial)
      (Text.trim (" ".intercalate dfa.finals)) =
        .ok (NFA.ofStates dfa.labels initial dfa.finals) := by
  have labels_eq := Text.words_intercalate labelled.labels_words
  have finals_eq := Text.words_intercalate labelled.finals_words
  have finals_nodup : dfa.finals.Nodup := by
    rw [labelled.finals_eq]
    exact labelled.labels_nodup.sublist (List.filter_sublist.map _)
  obtain ⟨label, declared, same⟩ := labelled.initial
  obtain rfl := Option.some.inj (same.symm.trans initial_eq)
  refine NFA.readHeader_eq_ok_iff.mpr ⟨label, NFA.heading_trim_iff.mpr ⟨?_, ?_, ?_⟩, ?_⟩
  · exact (labelled.labels_words label declared).words_eq
  · rwa [labels_eq]
  · rw [labels_eq, finals_eq]
    exact fun state => labelled.finals_subset
  · rw [Text.words_trim, Text.words_trim, labels_eq, finals_eq,
      Subset.eraseDups_eq_self labelled.labels_nodup, Subset.eraseDups_eq_self finals_nodup]

/-- Reading the text form is reading the lines of the transitions. -/
theorem ofText_eq_readEdges (labelled : dfa.WellLabelled) (initial_eq : dfa.initial = some initial)
    (written : dfa.toText? = some text) (strict : Bool) :
    NFA.ofText strict text = NFA.readEdges strict (NFA.ofStates dfa.labels initial dfa.finals)
      ((((Text.lines text).drop 3).map Text.trim).zipIdx 4) := by
  have lines_eq := labelled.lines_toText initial_eq written
  have onText : initial ∈ Text.lines text := by simp [lines_eq]
  have isItsWord : initial ∈ Text.words initial := by
    rw [(labelled.initial_isWord initial_eq).words_eq]
    exact List.mem_singleton_self initial
  have visible := Text.isBlankText_eq_false onText isItsWord
  rw [NFA.ofText_eq visible lines_eq (by simp), labelled.readHeader_eq initial_eq,
    Outcome.ofExcept_ok_bind, lines_eq]
  rfl

/-- A transition has a line of its own if its symbol holds no line feed. -/
theorem line_mem_lines (labelled : dfa.WellLabelled) (initial_eq : dfa.initial = some initial)
    (written : dfa.toText? = some text) (member : transition ∈ dfa.transitions)
    (oneLine : '\n' ∉ transition.symbol.toList) : transition.line ∈ Text.lines text := by
  have inBody : transition.line ∈ dfa.transitions.flatMap fun other => Text.lines other.line :=
    List.mem_flatMap.mpr ⟨transition, member,
      labelled.lines_line member oneLine ▸ List.mem_singleton_self _⟩
  rw [labelled.lines_toText initial_eq written]
  simp only [List.mem_cons, List.mem_append, inBody, true_or, or_true]

/-- The labels of an automaton stand in its text form. -/
theorem labelsStandIn (labelled : dfa.WellLabelled) (written : dfa.toText? = some text) :
    dfa.LabelsStandIn text := by
  obtain ⟨initial, _, initial_eq⟩ := labelled.initial
  refine
    { heading := ?_
      words_eq := ?_
      line_mem := fun transition member oneLine =>
        ⟨labelled.line_mem_lines initial_eq written member oneLine, labelled.words_line member⟩
      ofText_eq := fun strict =>
        ⟨initial, initial_eq, labelled.ofText_eq_readEdges initial_eq written strict⟩
      readsBack := ?_ }
  · rw [labelled.lines_toText initial_eq written, initial_eq]
    simp only [List.take_succ_cons, List.take_zero, List.map_cons, List.map_nil, Option.toList_some,
      Text.words_intercalate labelled.labels_words, Text.words_intercalate labelled.finals_words,
      (labelled.initial_isWord initial_eq).words_eq]
  · rw [labelled.words_lines_toText initial_eq written, initial_eq, Option.toList_some]
  · intro wordy
    have printable := labelled.printable wordy
    obtain ⟨nfa, read⟩ := printable.exists_ofText written true
    exact ⟨nfa, NFA.ofText_eq_of_strict read, printable.readsBackAs written read⟩

end WellLabelled

end Determinizer.DFA
