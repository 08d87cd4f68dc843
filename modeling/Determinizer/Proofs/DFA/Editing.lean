import Determinizer.Proofs.DFA.ReachablePart

/-! # Edits of an automaton

An automaton is made by adding states, setting transitions and pruning, in any order. Its final
labels and its initial label repeat what the states say of themselves. Every edit keeps the two in
agreement, also one that is refused and also where labels repeat. After a pruning that is not
refused no transition dangles.
-/

namespace Determinizer.DFA

/-- A change of an automaton. -/
inductive Edit where
  | add (state : State)
  /-- Makes `target` the target of the first state with label `source`. -/
  | link (source : Label) (symbol : Symbol) (target : Label)
  | prune

/-- Why an edit is refused. -/
inductive EditFault where
  | noState (label : Label)
  | pruning (error : Error)
  deriving DecidableEq

/-- The automaton after an edit, and whether the edit was refused. A pruning that is refused has
removed the unreachable states all the same. -/
def Edit.apply (dfa : DFA) : Edit → DFA × Except EditFault Unit
  | add state => (dfa.addState state, .ok ())
  | link source symbol target =>
    match dfa.state? source with
    | none => (dfa, .error (.noState source))
    | some _ => (dfa.link source symbol target, .ok ())
  | prune =>
    match dfa.prune.result with
    | .error error => (dfa.reachablePart, .error (.pruning error))
    | .ok part => (part, .ok ())

/-- The automaton after some edits, refused or not. -/
def edited (dfa : DFA) (edits : List Edit) : DFA :=
  edits.foldl (fun dfa edit => (edit.apply dfa).1) dfa

/-- The final labels and the initial label are those that the states give. -/
structure IsMarked (dfa : DFA) : Prop where
  finals_eq : dfa.finals = finalLabels dfa.states
  initial_eq : dfa.initial = initialLabel? dfa.states

variable {dfa : DFA} {state : State} {states : List State} {label : Label}

section Marks

theorem initialLabel?_eq_none_iff :
    initialLabel? states = none ↔ ∀ state ∈ states, state.isInitial = false := by
  simp [initialLabel?]

/-- The initial label is that of the last initial state. -/
theorem initialLabel?_eq_some_iff : initialLabel? states = some label ↔
    ∃ earlier state later, states = earlier ++ state :: later ∧ state.isInitial = true ∧
      state.label = label ∧ ∀ other ∈ later, other.isInitial = false := by
  have last_eq : (states.filter (·.isInitial)).getLast? = states.reverse.find? (·.isInitial) := by
    rw [← List.head?_reverse, ← List.filter_reverse, List.head?_filter]
  rw [initialLabel?, last_eq, Option.map_eq_some_iff]
  constructor
  · rintro ⟨state, found, rfl⟩
    obtain ⟨isInitial, later, earlier, states_eq, none⟩ := List.find?_eq_some_iff_append.mp found
    refine ⟨earlier.reverse, state, later.reverse, ?_, isInitial, rfl, ?_⟩
    · simpa using congrArg List.reverse states_eq
    · simpa using none
  · rintro ⟨earlier, state, later, rfl, isInitial, rfl, none⟩
    have found := List.find?_eq_some_iff_append.mpr
      ⟨isInitial, later.reverse, earlier.reverse, rfl, by simpa using none⟩
    exact ⟨state, by simpa using found, rfl⟩

/-- An automaton whose labels agree with its states is the one that these states make. -/
theorem IsMarked.eq_ofStates (marked : dfa.IsMarked) :
    dfa = ofStates dfa.alphabet dfa.policy dfa.states := by
  rw [ofStates, ← marked.finals_eq, ← marked.initial_eq]

theorem isMarked_ofStates (alphabet : List Symbol) (policy : Policy) (states : List State) :
    (ofStates alphabet policy states).IsMarked :=
  ⟨rfl, rfl⟩

end Marks

section Steps

theorem IsMarked.addState (marked : dfa.IsMarked) (state : State) :
    (dfa.addState state).IsMarked := by
  rw [marked.eq_ofStates, ← ofStates_append]
  exact isMarked_ofStates ..

/-- A new transition changes neither labels nor marks, so the marked labels stay as they are. -/
theorem map_label_filter_link {isMarked : State → Bool} (symbol : Symbol) (target : Label)
    (mark_eq : ∀ state : State, isMarked (state.link symbol target) = isMarked state)
    (source : Label) (states : List State) :
    ((updateFirst source (·.link symbol target) states).filter isMarked).map (·.label) =
      (states.filter isMarked).map (·.label) := by
  induction states with
  | nil => rfl
  | cons state rest ih =>
    rw [updateFirst]
    split
    · rw [List.filter_cons, List.filter_cons, mark_eq]
      cases isMarked state <;> rfl
    · rw [List.filter_cons, List.filter_cons]
      cases isMarked state <;> simp [ih]

theorem IsMarked.link (marked : dfa.IsMarked) (source : Label) (symbol : Symbol) (target : Label) :
    (dfa.link source symbol target).IsMarked where
  finals_eq := marked.finals_eq.trans
    (map_label_filter_link symbol target (fun _ => rfl) source dfa.states).symm
  initial_eq := by
    refine marked.initial_eq.trans (Eq.symm ?_)
    rw [initialLabel?, initialLabel?, ← List.getLast?_map, ← List.getLast?_map]
    exact congrArg _ (map_label_filter_link symbol target (fun _ => rfl) source dfa.states)

/-- A filter that keeps the last item of a list has the same last item. -/
theorem getLast?_filter_of_kept {α : Type} {keep : α → Bool} {items : List α}
    (kept : ∀ item, items.getLast? = some item → keep item = true) :
    (items.filter keep).getLast? = items.getLast? := by
  cases last : items.getLast? with
  | none => rw [List.getLast?_eq_none_iff.mp last, List.filter_nil, List.getLast?_nil]
  | some item =>
    obtain ⟨before, rfl⟩ := List.getLast?_eq_some_iff.mp last
    rw [List.filter_append, List.filter_cons_of_pos (kept item last), List.filter_nil,
      List.getLast?_concat]

/-- The initial state is reachable, so pruning keeps the last of the initial states. -/
theorem IsMarked.reachablePart (marked : dfa.IsMarked) : dfa.reachablePart.IsMarked where
  finals_eq := finalLabels_reachablePart marked.finals_eq
  initial_eq := by
    refine marked.initial_eq.trans (Eq.symm ?_)
    have swapped : dfa.reachablePart.states.filter (·.isInitial) =
        (dfa.states.filter (·.isInitial)).filter fun state => dfa.Reachable state.label := by
      rw [states_reachablePart, List.filter_filter, List.filter_filter]
      simp only [Bool.and_comm]
    rw [initialLabel?, swapped, getLast?_filter_of_kept, initialLabel?]
    intro state last
    apply decide_eq_true
    refine .initial (marked.initial_eq.trans ?_)
    rw [initialLabel?, last, Option.map_some]

/-- Pruning leaves the reachable part, and is refused exactly if a transition of it dangles. -/
theorem Edit.apply_prune (dfa : DFA) : (Edit.prune.apply dfa).1 = dfa.reachablePart ∧
    ((Edit.prune.apply dfa).2 = .ok () ↔ dfa.reachablePart.dangling = []) := by
  rw [apply, result_prune]
  cases dfa.reachablePart.dangling <;> simp

/-- Every edit, refused or not, keeps the labels in agreement with the states. -/
theorem IsMarked.apply (marked : dfa.IsMarked) (edit : Edit) : (edit.apply dfa).1.IsMarked := by
  cases edit with
  | add state => exact marked.addState state
  | link source symbol target =>
    rw [Edit.apply]
    split
    · exact marked
    · exact marked.link source symbol target
  | prune =>
    rw [(Edit.apply_prune dfa).1]
    exact marked.reachablePart

end Steps

section Runs

theorem edited_concat (dfa : DFA) (edits : List Edit) (last : Edit) :
    dfa.edited (edits ++ [last]) = (last.apply (dfa.edited edits)).1 := by
  rw [edited, List.foldl_concat, edited]

theorem IsMarked.edited (marked : dfa.IsMarked) (edits : List Edit) :
    (dfa.edited edits).IsMarked := by
  induction edits generalizing dfa with
  | nil => exact marked
  | cons edit rest ih => exact ih (marked.apply edit)

/-- What is recorded beside the states is what they say: the labels of the final states in their
order, and the label of the last initial state if there is one. -/
structure RecordsStates (dfa : DFA) : Prop where
  finals_eq : dfa.finals = (dfa.states.filter (·.isFinal)).map (·.label)
  initial_eq_none_iff : dfa.initial = none ↔ ∀ state ∈ dfa.states, state.isInitial = false
  initial_eq_some_iff : ∀ label, dfa.initial = some label ↔
    ∃ earlier state later, dfa.states = earlier ++ state :: later ∧ state.isInitial = true ∧
      state.label = label ∧ ∀ other ∈ later, other.isInitial = false

theorem IsMarked.recordsStates (marked : dfa.IsMarked) : dfa.RecordsStates where
  finals_eq := marked.finals_eq
  initial_eq_none_iff := by rw [marked.initial_eq, initialLabel?_eq_none_iff]
  initial_eq_some_iff := fun _ => by rw [marked.initial_eq, initialLabel?_eq_some_iff]

/-- After any edits of an automaton without states, what is recorded beside the states is what they
say. A pruning that follows is accepted exactly if it leaves no dangling transition. -/
theorem recordsStates_edited (alphabet : List Symbol) (policy : Policy) (edits : List Edit) :
    ((ofAlphabet alphabet policy).edited edits).RecordsStates ∧
      ((Edit.prune.apply ((ofAlphabet alphabet policy).edited edits)).2 = .ok () ↔
        ((ofAlphabet alphabet policy).edited (edits ++ [.prune])).dangling = []) := by
  constructor
  · have marked : (ofAlphabet alphabet policy).IsMarked := ⟨rfl, rfl⟩
    exact (marked.edited edits).recordsStates
  · rw [(Edit.apply_prune _).2, edited_concat, (Edit.apply_prune _).1]

end Runs

end Determinizer.DFA
