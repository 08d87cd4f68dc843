import Determinizer.Proofs.DFA.ReadBack
import Determinizer.Proofs.SubsetConstruction.Simulation

/-! # States in the order of their names

The states of an automaton can be listed in the order of their labels by code points and then be
labelled anew by their positions. Up to `Z` the labels of positions follow this order themselves, so
an automaton of at most 26 states that is labelled by positions stays as it is. Later on they do
not: `Q0` stands before `R`.
-/

namespace Determinizer.DFA

/-- The state with new names for itself and for the targets of its transitions. -/
def State.renamed (rename : Label → Label) (state : State) : State :=
  { state with
    label := rename state.label
    transitions :=
      Table.ofList (state.transitions.entries.map fun entry => (entry.1, rename entry.2)) }

/-- The states in the order of their labels. -/
def sortedStates (dfa : DFA) : List State :=
  dfa.states.mergeSort fun left right => decide (left.label ≤ right.label)

def sortedLabels (dfa : DFA) : List Label := dfa.sortedStates.map (·.label)

/-- The label of the position that a label has among the labels in order. -/
def newLabel (dfa : DFA) (label : Label) : Label :=
  Label.ofPosition (dfa.sortedLabels.idxOf label)

/-- The same automaton with its states in the order of their labels, labelled by positions. -/
def inNameOrder (dfa : DFA) : DFA where
  alphabet := dfa.alphabet
  policy := dfa.policy
  states := dfa.sortedStates.map (State.renamed dfa.newLabel)
  initial := dfa.initial.map dfa.newLabel
  finals := finalLabels (dfa.sortedStates.map (State.renamed dfa.newLabel))

/-- What the text form shows of a state. -/
def State.shown (alphabet : List Symbol) (state : State) : Label × Bool × List Transition :=
  (state.label, state.isFinal, state.transitionsOn alphabet)

variable {dfa other : DFA} {state target : State} {alphabet : List Symbol} {label : Label}
  {rename : Label → Label} {symbol : Symbol}

/-- The text form depends on what it shows of the states, and on the initial state. -/
theorem toText?_eq_of_shown_eq
    (shown : dfa.states.map (State.shown dfa.alphabet) =
      other.states.map (State.shown other.alphabet))
    (initial_eq : dfa.initial = other.initial) (finals_eq : dfa.finals = finalLabels dfa.states)
    (otherFinals_eq : other.finals = finalLabels other.states) : dfa.toText? = other.toText? := by
  have labels_eq : dfa.labels = other.labels := by
    simpa [labels, State.shown, Function.comp_def] using congrArg (List.map Prod.fst) shown
  have transitions_eq : dfa.transitions = other.transitions := by
    simpa [transitions, State.shown, List.flatMap_map] using
      congrArg (List.flatMap fun view => view.2.2) shown
  have finals : dfa.finals = other.finals := by
    rw [finals_eq, otherFinals_eq]
    simpa [finalLabels, State.shown, List.filter_map, Function.comp_def] using
      congrArg (fun views => (views.filter fun view => view.2.1).map Prod.fst) shown
  rw [toText?, textLines?, labels_eq, initial_eq, finals, transitions_eq, toText?, textLines?]

theorem transitionsOn_congr (label_eq : state.label = target.label)
    (same : ∀ symbol ∈ alphabet,
      state.transitions.get? symbol = target.transitions.get? symbol) :
    state.transitionsOn alphabet = target.transitionsOn alphabet := by
  refine List.filterMap_congr fun symbol known => ?_
  rw [label_eq, same symbol known]

theorem get?_transitions_renamed (state : State) (symbol : Symbol) :
    (state.renamed rename).transitions.get? symbol =
      (state.transitions.get? symbol).map rename := by
  rw [State.renamed, Table.get?_ofList, SubsetConstruction.lookup_map_snd]
  · rfl
  · rw [List.map_map]
    exact state.transitions.keys_nodup

theorem sortedStates_perm (dfa : DFA) : dfa.sortedStates.Perm dfa.states :=
  List.mergeSort_perm ..

theorem mem_sortedStates : state ∈ dfa.sortedStates ↔ state ∈ dfa.states :=
  dfa.sortedStates_perm.mem_iff

theorem sortedLabels_perm (dfa : DFA) : dfa.sortedLabels.Perm dfa.labels :=
  dfa.sortedStates_perm.map _

theorem mem_sortedLabels : label ∈ dfa.sortedLabels ↔ label ∈ dfa.labels :=
  dfa.sortedLabels_perm.mem_iff

theorem length_sortedLabels (dfa : DFA) : dfa.sortedLabels.length = dfa.states.length := by
  rw [dfa.sortedLabels_perm.length_eq, labels, List.length_map]

theorem nodup_sortedLabels (distinct : dfa.labels.Nodup) : dfa.sortedLabels.Nodup :=
  dfa.sortedLabels_perm.nodup_iff.mpr distinct

theorem pairwise_sortedLabels (dfa : DFA) : dfa.sortedLabels.Pairwise (· ≤ ·) := by
  have sorted := @List.pairwise_mergeSort _
    (fun left right : State => decide (left.label ≤ right.label)) ?_ ?_ dfa.states
  · rw [sortedLabels, List.pairwise_map]
    exact sorted.imp of_decide_eq_true
  · simp only [decide_eq_true_eq]
    exact fun _ _ _ => String.le_trans
  · simp only [Bool.or_eq_true, decide_eq_true_eq]
    exact fun _ _ => String.le_total _ _

/-- The new labels count the states. -/
theorem map_newLabel_sortedLabels (distinct : dfa.labels.Nodup) :
    dfa.sortedLabels.map dfa.newLabel = (List.range dfa.states.length).map Label.ofPosition := by
  apply List.ext_getElem
  · simp [length_sortedLabels]
  · intro position bound _
    simp only [List.getElem_map, List.getElem_range, newLabel]
    rw [(nodup_sortedLabels distinct).idxOf_getElem]

/-- Up to `Z` the labels of positions follow the order of code points. -/
theorem pairwise_map_ofPosition {count : Nat} (few : count ≤ 26) :
    ((List.range count).map Label.ofPosition).Pairwise (· ≤ ·) := by
  have all : ((List.range 26).map Label.ofPosition).Pairwise (· ≤ ·) := by decide +kernel
  exact all.sublist ((List.range_sublist.mpr few).map _)

/-- At most 26 states that are labelled by their positions have this order and these labels. -/
theorem toText?_inNameOrder (printable : dfa.Printable) (few : dfa.states.length ≤ 26)
    (labels_eq : dfa.labels = (List.range dfa.states.length).map Label.ofPosition) :
    dfa.inNameOrder.toText? = dfa.toText? := by
  have distinct := printable.labels_nodup
  have sorted : dfa.sortedStates = dfa.states := by
    have ordered : dfa.labels.Pairwise (· ≤ ·) := labels_eq ▸ pairwise_map_ofPosition few
    exact List.mergeSort_of_pairwise ((List.pairwise_map.mp ordered).imp decide_eq_true)
  have kept : ∀ label ∈ dfa.labels, dfa.newLabel label = label := by
    have same : dfa.labels.map dfa.newLabel = dfa.labels.map id := by
      conv => rhs; rw [List.map_id, labels_eq, ← map_newLabel_sortedLabels distinct]
      rw [sortedLabels, sorted, labels]
    exact List.map_inj_left.mp same
  apply toText?_eq_of_shown_eq
  · rw [inNameOrder, sorted, List.map_map]
    refine List.map_congr_left fun state member => ?_
    have label_eq : (state.renamed dfa.newLabel).label = state.label :=
      kept _ (label_mem_labels member)
    have same : (state.renamed dfa.newLabel).transitionsOn dfa.alphabet =
        state.transitionsOn dfa.alphabet := by
      apply transitionsOn_congr label_eq
      intro symbol known
      rw [get?_transitions_renamed]
      cases linked : state.transitions.get? symbol with
      | none => rfl
      | some label =>
        have present := (mem_transitions_from distinct member).mpr ⟨known, linked⟩
        exact congrArg some (kept label (printable.target_mem_labels present))
    exact Prod.ext label_eq (Prod.ext rfl same)
  · obtain ⟨label, declared, started⟩ := printable.initial
    rw [inNameOrder, started, Option.map_some, kept label declared]
  · rfl
  · exact printable.finals_eq

end Determinizer.DFA
