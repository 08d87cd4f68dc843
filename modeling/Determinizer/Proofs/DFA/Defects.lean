import Determinizer.Proofs.DFA.ReachablePart

/-! # Defects of an automaton

A defect is a transition on a symbol of the alphabet that leads from a reachable state to a label
that no state carries. What a reachable state leads to is reachable and stays if a state carries it,
so pruning makes no transition dangle that did not dangle before. An automaton is refused exactly for
its defects, which are listed state by state and symbol by symbol.
-/

namespace Determinizer.DFA

variable {dfa : DFA} {state : State} {symbol : Symbol} {label target : Label}
  {transition : Transition}

/-- The transitions of a state on symbols of the alphabet to labels that no state carries. -/
def lostTransitions (dfa : DFA) (state : State) : List Transition :=
  dfa.alphabet.filterMap fun symbol =>
    (state.transitions.get? symbol).bind fun target =>
      if target ∈ dfa.labels then none else some ⟨state.label, symbol, target⟩

/-- The transitions of reachable states to labels that no state carries, in the order of the states,
then of the alphabet. -/
def defects (dfa : DFA) : List Transition :=
  (dfa.states.filter fun state => dfa.Reachable state.label).flatMap dfa.lostTransitions

/-- Pruning refuses an automaton for its defects and for nothing else. -/
structure RefusedForDefects (dfa : DFA) : Prop where
  reachable_iff : ∀ label, dfa.Reachable label ↔
    ∃ start, dfa.initial = some start ∧ Relation.ReflTransGen dfa.LeadsTo start label
  refused_iff : (∃ error, dfa.prune.result = .error error) ↔
    ∃ state ∈ dfa.states, dfa.Reachable state.label ∧ ∃ symbol ∈ dfa.alphabet, ∃ target,
      state.transitions.get? symbol = some target ∧ target ∉ dfa.labels
  error_eq : ∀ error, dfa.prune.result = .error error → error = .danglingTransitions dfa.defects
  /-- What dangles afterwards dangled before, and belongs to a state that is reachable. -/
  dangling_iff : ∀ transition, transition ∈ dfa.reachablePart.dangling ↔
    transition ∈ dfa.dangling ∧ dfa.Reachable transition.source

theorem mem_lostTransitions : transition ∈ dfa.lostTransitions state ↔
    transition.source = state.label ∧ transition.symbol ∈ dfa.alphabet ∧
      state.transitions.get? transition.symbol = some transition.target ∧
      transition.target ∉ dfa.labels := by
  rcases transition with ⟨source, symbol, target⟩
  simp only [lostTransitions, List.mem_filterMap, Option.bind_eq_some_iff,
    Option.ite_none_left_eq_some, Option.some.injEq, Transition.mk.injEq]
  grind

theorem mem_defects : transition ∈ dfa.defects ↔
    ∃ state ∈ dfa.states, dfa.Reachable state.label ∧ transition ∈ dfa.lostTransitions state := by
  simp only [defects, List.mem_flatMap, List.mem_filter, decide_eq_true_iff, and_assoc]

theorem mem_labels_reachablePart :
    label ∈ dfa.reachablePart.labels ↔ label ∈ dfa.labels ∧ dfa.Reachable label := by
  simp only [labels, List.mem_map, mem_states_reachablePart]
  grind

/-- The dangling transitions, state by state and symbol by symbol. -/
theorem dangling_eq_flatMap (dfa : DFA) : dfa.dangling = dfa.states.flatMap dfa.lostTransitions := by
  have kept : dfa.dangling = dfa.transitions.filter fun transition =>
      decide (transition.target ∉ dfa.labels) := by
    refine List.filter_congr fun transition _ => ?_
    rw [Bool.eq_iff_iff]
    simp
  rw [kept, transitions, List.filter_flatMap]
  congr 1
  funext state
  rw [State.transitionsOn, List.filter_filterMap, lostTransitions]
  congr 1
  funext symbol
  cases state.transitions.get? symbol with
  | none => rfl
  | some target =>
    by_cases carried : target ∈ dfa.labels <;> simp [carried, Option.filter]

/-- What a reachable state leads to dangles after pruning exactly if it did before. -/
theorem lostTransitions_reachablePart (distinct : dfa.labels.Nodup) (member : state ∈ dfa.states)
    (reached : dfa.Reachable state.label) :
    dfa.reachablePart.lostTransitions state = dfa.lostTransitions state := by
  refine List.filterMap_congr fun symbol known => Option.bind_congr fun target linked => ?_
  have targetReached : dfa.Reachable target :=
    .step reached (carrier?_label distinct member) known linked
  simp only [mem_labels_reachablePart, and_iff_left targetReached]

/-- The dangling transitions of the reachable part are the defects of the whole. -/
theorem dangling_reachablePart (distinct : dfa.labels.Nodup) :
    dfa.reachablePart.dangling = dfa.defects := by
  rw [dangling_eq_flatMap, states_reachablePart, defects]
  refine List.flatMap_congr fun state member => ?_
  obtain ⟨present, reached⟩ := List.mem_filter.mp member
  exact lostTransitions_reachablePart distinct present (of_decide_eq_true reached)

theorem exists_prune_error_iff : (∃ error, dfa.prune.result = .error error) ↔
    ∃ transition, transition ∈ dfa.reachablePart.dangling := by
  rw [result_prune]
  cases dfa.reachablePart.dangling <;> simp

/-- An automaton whose labels tell states apart is refused exactly for its defects. -/
theorem prune_refusedForDefects (distinct : dfa.labels.Nodup) : dfa.RefusedForDefects where
  reachable_iff := fun _ => reachable_iff_exists_chain distinct
  refused_iff := by
    rw [exists_prune_error_iff, dangling_reachablePart distinct]
    constructor
    · rintro ⟨transition, listed⟩
      obtain ⟨state, member, reached, lost⟩ := mem_defects.mp listed
      obtain ⟨_, known, linked, missing⟩ := mem_lostTransitions.mp lost
      exact ⟨state, member, reached, _, known, _, linked, missing⟩
    · rintro ⟨state, member, reached, symbol, known, target, linked, missing⟩
      refine ⟨⟨state.label, symbol, target⟩, mem_defects.mpr ⟨state, member, reached, ?_⟩⟩
      exact mem_lostTransitions.mpr ⟨rfl, known, linked, missing⟩
  error_eq := fun _ refused => dangling_reachablePart distinct ▸ eq_of_prune_error refused
  dangling_iff := by
    intro transition
    rw [dangling_reachablePart distinct, mem_defects, dangling_eq_flatMap, List.mem_flatMap]
    constructor
    · rintro ⟨state, member, reached, lost⟩
      exact ⟨⟨state, member, lost⟩, (mem_lostTransitions.mp lost).1 ▸ reached⟩
    · rintro ⟨⟨state, member, lost⟩, reached⟩
      exact ⟨state, member, (mem_lostTransitions.mp lost).1 ▸ reached, lost⟩

/-- Transitions to no state, from states that are reachable and from one that is not, on a symbol
that the alphabet repeats and on one that it lacks. -/
private def frayed : DFA where
  alphabet := ["0", "1", "0"]
  policy := .sparse
  states :=
    [⟨"X", ["x"], true, false, Table.ofList [("0", "lost"), ("1", "A")]⟩,
     ⟨"B", ["b"], true, false, Table.ofList [("1", "gone"), ("0", "A"), ("2", "nowhere")]⟩,
     ⟨"A", ["a"], false, true, Table.ofList [("1", "B"), ("0", "gone")]⟩]
  initial := some "A"
  finals := ["X", "B"]

theorem prune_refusedForDefects_frayed : frayed.labels.Nodup ∧ frayed.RefusedForDefects ∧
    frayed.prune.result = .error (.danglingTransitions frayed.defects) := by
  have distinct : frayed.labels.Nodup := by decide
  have report := prune_refusedForDefects distinct
  have refused : ∃ error, frayed.prune.result = .error error :=
    report.refused_iff.mpr ⟨frayed.states[2], List.getElem_mem _, .initial rfl, "0", by decide,
      "gone", by decide, by decide⟩
  obtain ⟨error, ended⟩ := refused
  exact ⟨distinct, report, report.error_eq error ended ▸ ended⟩

end Determinizer.DFA
