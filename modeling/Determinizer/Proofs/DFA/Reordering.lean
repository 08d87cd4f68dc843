import Determinizer.DFA.Printer
import Determinizer.Proofs.DFA.Reachability
import Mathlib.Data.List.Forall2

/-! # An alphabet in another order

The order of an alphabet is the order in which transitions are followed and written. Automata that
differ in nothing else reach the same states, and their text forms differ only in the order of the
lines of each state.
-/

namespace Determinizer.DFA

/-- The states differ at most in the order of their transitions. -/
structure State.Agrees (state other : State) : Prop where
  label_eq : state.label = other.label
  subset_eq : state.subset = other.subset
  isFinal_eq : state.isFinal = other.isFinal
  isInitial_eq : state.isInitial = other.isInitial
  get?_eq : ∀ symbol, state.transitions.get? symbol = other.transitions.get? symbol

/-- The automata differ at most in the order of the alphabet and of the transitions of each state. -/
structure Reorders (dfa other : DFA) : Prop where
  alphabet_perm : dfa.alphabet.Perm other.alphabet
  policy_eq : dfa.policy = other.policy
  states_agree : List.Forall₂ State.Agrees dfa.states other.states
  initial_eq : dfa.initial = other.initial
  finals_eq : dfa.finals = other.finals

/-- The lines of the transitions of a state. -/
def State.lines (alphabet : List Symbol) (state : State) : List String :=
  (state.transitionsOn alphabet).map (·.line)

/-- The lines of the transitions, state by state. -/
def blocks (dfa : DFA) : List (List String) := dfa.states.map (State.lines dfa.alphabet)

/-- Lines as a text, each with a line feed at its end. -/
def ofLines (lines : List String) : String := "\n".intercalate lines ++ "\n"

/-- The text forms have the same first three lines, and the lines of each state in one of them are
those of this state in the other, in some order. -/
def TextsAgree (dfa other : DFA) : Prop :=
  ∃ first second third : String,
    dfa.toText? = some (ofLines ([first, second, third] ++ dfa.blocks.flatten)) ∧
    other.toText? = some (ofLines ([first, second, third] ++ other.blocks.flatten)) ∧
    List.Forall₂ List.Perm dfa.blocks other.blocks

variable {dfa other : DFA} {state : State} {states others : List State} {label : Label}

theorem State.Agrees.symm {other : State} (agrees : state.Agrees other) : other.Agrees state where
  label_eq := agrees.label_eq.symm
  subset_eq := agrees.subset_eq.symm
  isFinal_eq := agrees.isFinal_eq.symm
  isInitial_eq := agrees.isInitial_eq.symm
  get?_eq := fun symbol => (agrees.get?_eq symbol).symm

theorem map_label_eq (agree : List.Forall₂ State.Agrees states others) :
    states.map (·.label) = others.map (·.label) := by
  induction agree with
  | nil => rfl
  | cons here _ ih => rw [List.map_cons, List.map_cons, here.label_eq, ih]

/-- A choice that does not look at the order of transitions chooses the same states. -/
theorem filter_agree {keep : State → Bool}
    (same : ∀ state other : State, state.Agrees other → keep state = keep other)
    (agree : List.Forall₂ State.Agrees states others) :
    List.Forall₂ State.Agrees (states.filter keep) (others.filter keep) := by
  refine List.rel_filter ?_ agree
  intro state other here
  exact iff_of_eq (congrArg (· = true) (same state other here))

theorem finalLabels_eq (agree : List.Forall₂ State.Agrees states others) :
    finalLabels states = finalLabels others :=
  map_label_eq (filter_agree (fun _ _ => State.Agrees.isFinal_eq) agree)

theorem initialLabel?_eq (agree : List.Forall₂ State.Agrees states others) :
    initialLabel? states = initialLabel? others := by
  rw [initialLabel?, initialLabel?, ← List.getLast?_map, ← List.getLast?_map]
  exact congrArg _ (map_label_eq (filter_agree (fun _ _ => State.Agrees.isInitial_eq) agree))

/-- States that differ in the order of their transitions make automata that do. -/
theorem reorders_ofStates {alphabet reordered : List Symbol} (perm : alphabet.Perm reordered)
    (policy : Policy) (agree : List.Forall₂ State.Agrees states others) :
    (ofStates alphabet policy states).Reorders (ofStates reordered policy others) where
  alphabet_perm := perm
  policy_eq := rfl
  states_agree := agree
  initial_eq := initialLabel?_eq agree
  finals_eq := finalLabels_eq agree

/-- Where the one list has a state with a label, the other has the same state. -/
theorem exists_find?_of_agree (agree : List.Forall₂ State.Agrees states others)
    (found : states.find? (·.label == label) = some state) :
    ∃ other, others.find? (·.label == label) = some other ∧ state.Agrees other := by
  induction agree with
  | nil => contradiction
  | @cons first second rest later here _ ih =>
    rw [List.find?_cons] at found ⊢
    rw [← here.label_eq]
    cases same : first.label == label with
    | true =>
      rw [same, Option.some.injEq] at found
      exact ⟨second, rfl, found ▸ here⟩
    | false =>
      rw [same] at found
      exact ih found

namespace Reorders

theorem symm (reorders : dfa.Reorders other) : other.Reorders dfa where
  alphabet_perm := reorders.alphabet_perm.symm
  policy_eq := reorders.policy_eq.symm
  states_agree := (reorders.states_agree.imp fun _ _ => State.Agrees.symm).flip
  initial_eq := reorders.initial_eq.symm
  finals_eq := reorders.finals_eq.symm

theorem reachable (reorders : dfa.Reorders other) (reached : dfa.Reachable label) :
    other.Reachable label := by
  induction reached with
  | initial isInitial => exact .initial (reorders.initial_eq ▸ isInitial)
  | step _ carried known linked ih =>
    obtain ⟨same, otherCarried, agrees⟩ :=
      exists_find?_of_agree (List.forall₂_reverse_iff.mpr reorders.states_agree) carried
    exact .step ih otherCarried (reorders.alphabet_perm.mem_iff.mp known)
      (agrees.get?_eq _ ▸ linked)

theorem reachable_iff (reorders : dfa.Reorders other) :
    dfa.Reachable label ↔ other.Reachable label :=
  ⟨reorders.reachable, reorders.symm.reachable⟩

/-- The reachable parts differ no more than the automata. -/
theorem reachablePart (reorders : dfa.Reorders other) :
    dfa.reachablePart.Reorders other.reachablePart := by
  have reached_eq : dfa.reachable.contains = other.reachable.contains := by
    funext label
    rw [Bool.eq_iff_iff, ← Std.HashSet.mem_iff_contains, ← Std.HashSet.mem_iff_contains,
      mem_reachable, mem_reachable, reorders.reachable_iff]
  refine ⟨reorders.alphabet_perm, reorders.policy_eq, ?_, reorders.initial_eq, ?_⟩
  · change List.Forall₂ _ (dfa.states.filter _) (other.states.filter _)
    rw [reached_eq]
    exact filter_agree (fun _ _ agrees => congrArg _ agrees.label_eq) reorders.states_agree
  · change dfa.finals.filter _ = other.finals.filter _
    rw [reached_eq, reorders.finals_eq]

/-- The lines of the transitions of a state follow the order of the alphabet. -/
theorem lines_perm (reorders : dfa.Reorders other) {twin : State}
    (agrees : state.Agrees twin) :
    (state.lines dfa.alphabet).Perm (twin.lines other.alphabet) := by
  have same : twin.transitionsOn other.alphabet = state.transitionsOn other.alphabet := by
    refine List.filterMap_congr fun symbol _ => ?_
    rw [agrees.label_eq, agrees.get?_eq]
  rw [State.lines, State.lines, same]
  exact (reorders.alphabet_perm.filterMap _).map _

theorem blocks_perm (reorders : dfa.Reorders other) :
    List.Forall₂ List.Perm dfa.blocks other.blocks := by
  rw [blocks, blocks, List.forall₂_map_left_iff, List.forall₂_map_right_iff]
  exact reorders.states_agree.imp fun _ _ => reorders.lines_perm

end Reorders

theorem toText?_eq_ofLines (isInitial : dfa.initial = some label) :
    dfa.toText? = some (ofLines
      ([" ".intercalate dfa.labels, label, " ".intercalate dfa.finals] ++ dfa.blocks.flatten)) := by
  have lines_eq : dfa.transitions.map (·.line) = dfa.blocks.flatten := by
    rw [transitions, List.map_flatMap, blocks, List.flatMap_def]
    rfl
  rw [toText?, textLines?, isInitial, lines_eq]
  rfl

/-- Automata that differ in the order of the alphabet have the same text form up to the order of the
lines of each state. -/
theorem Reorders.textsAgree (reorders : dfa.Reorders other) (isInitial : dfa.initial = some label) :
    dfa.TextsAgree other := by
  have labels_eq : other.labels = dfa.labels := (map_label_eq reorders.states_agree).symm
  have otherText := toText?_eq_ofLines (reorders.initial_eq ▸ isInitial)
  rw [labels_eq, ← reorders.finals_eq] at otherText
  exact ⟨_, _, _, toText?_eq_ofLines isInitial, otherText, reorders.blocks_perm⟩

end Determinizer.DFA
