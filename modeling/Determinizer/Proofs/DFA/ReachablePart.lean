import Determinizer.Proofs.DFA.Reachability
import Mathlib.Logic.Relation

/-! # The reachable part of an automaton

Pruning keeps the states with reachable labels and the final labels that are reachable, and leaves
all else as it was. What is kept leads only to reachable labels, so every word over the alphabet has
the run that it had, and a second pruning finds nothing to remove. Where labels tell states apart, a
label is reachable exactly if a chain of transitions leads to it from the initial label.
-/

namespace Determinizer.DFA

variable {dfa : DFA} {state : State} {states : List State} {label : Label} {word : List Symbol}

/-- A transition on a symbol of the alphabet leads from one label to another. -/
def LeadsTo (dfa : DFA) (source target : Label) : Prop :=
  ∃ symbol, ⟨source, symbol, target⟩ ∈ dfa.transitions

instance (dfa : DFA) : DecidablePred dfa.Reachable := fun _ => decidable_of_iff _ mem_reachable

theorem contains_reachable (dfa : DFA) (label : Label) :
    dfa.reachable.contains label = decide (dfa.Reachable label) := by
  rw [Bool.eq_iff_iff, decide_eq_true_iff, ← Std.HashSet.mem_iff_contains, mem_reachable]

section Chains

theorem mem_of_carrier? (carried : dfa.carrier? label = some state) :
    state ∈ dfa.states ∧ state.label = label :=
  ⟨List.mem_reverse.mp (List.mem_of_find?_eq_some carried), by simpa using List.find?_some carried⟩

theorem carrier?_label (distinct : dfa.labels.Nodup) (member : state ∈ dfa.states) :
    dfa.carrier? state.label = some state := by
  rw [carrier?_eq_state? distinct, state?_label distinct member]

/-- With distinct labels, the reachable labels are those at the end of a chain of transitions that
begins at the initial label. -/
theorem reachable_iff_exists_chain (distinct : dfa.labels.Nodup) : dfa.Reachable label ↔
    ∃ start, dfa.initial = some start ∧ Relation.ReflTransGen dfa.LeadsTo start label := by
  constructor
  · intro reached
    induction reached with
    | initial isInitial => exact ⟨_, isInitial, .refl⟩
    | step _ carried known linked ih =>
      obtain ⟨start, isInitial, chain⟩ := ih
      obtain ⟨member, rfl⟩ := mem_of_carrier? carried
      exact ⟨start, isInitial, chain.tail ⟨_, mem_transitions.mpr ⟨_, member, rfl, known, linked⟩⟩⟩
  · rintro ⟨start, isInitial, chain⟩
    induction chain with
    | refl => exact .initial isInitial
    | tail _ leads ih =>
      obtain ⟨symbol, listed⟩ := leads
      obtain ⟨state, member, rfl, known, linked⟩ := mem_transitions.mp listed
      exact .step ih (carrier?_label distinct member) known linked

end Chains

section Kept

theorem states_reachablePart (dfa : DFA) :
    dfa.reachablePart.states = dfa.states.filter fun state => dfa.Reachable state.label := by
  simp only [reachablePart, contains_reachable]

theorem finals_reachablePart (dfa : DFA) :
    dfa.reachablePart.finals = dfa.finals.filter fun label => dfa.Reachable label := by
  simp only [reachablePart]
  exact List.filter_congr fun label _ => contains_reachable dfa label

theorem mem_states_reachablePart :
    state ∈ dfa.reachablePart.states ↔ state ∈ dfa.states ∧ dfa.Reachable state.label := by
  rw [states_reachablePart, List.mem_filter, decide_eq_true_iff]

theorem states_reachablePart_sublist (dfa : DFA) : dfa.reachablePart.states.Sublist dfa.states :=
  List.filter_sublist

/-- Pruning takes labels away and gives no new ones. -/
theorem labels_reachablePart_sublist (dfa : DFA) : dfa.reachablePart.labels.Sublist dfa.labels :=
  (states_reachablePart_sublist dfa).map _

/-- A filter keeps a prefix if nothing that it keeps stands after something that it drops. -/
theorem filter_prefix_of_pairwise {α : Type} {keep : α → Bool} {items : List α}
    (downward : items.Pairwise fun earlier later => keep later = true → keep earlier = true) :
    items.filter keep <+: items := by
  induction items with
  | nil => exact List.prefix_rfl
  | cons item rest ih =>
    obtain ⟨here, later⟩ := List.pairwise_cons.mp downward
    by_cases kept : keep item = true
    · rw [List.filter_cons_of_pos kept]
      exact (List.prefix_cons_inj item).mpr (ih later)
    · have none : (item :: rest).filter keep = [] := by
        rw [List.filter_eq_nil_iff, List.forall_mem_cons]
        exact ⟨kept, fun other member keptLater => kept (here other member keptLater)⟩
      rw [none]
      exact List.nil_prefix

/-- The reachable states come first if no other state stands before one of them. -/
theorem states_reachablePart_prefix (downward : dfa.states.Pairwise fun earlier later =>
      dfa.Reachable later.label → dfa.Reachable earlier.label) :
    dfa.reachablePart.states <+: dfa.states := by
  rw [states_reachablePart]
  apply filter_prefix_of_pairwise
  simpa only [decide_eq_true_iff] using downward

/-- Final labels are filtered like the states that carry them. -/
theorem finalLabels_reachablePart (finals_eq : dfa.finals = finalLabels dfa.states) :
    dfa.reachablePart.finals = finalLabels dfa.reachablePart.states := by
  rw [finals_reachablePart, states_reachablePart, finals_eq, finalLabels, finalLabels,
    List.filter_map, List.filter_filter, List.filter_filter]
  simp only [Function.comp_def, Bool.and_comm]

/-- Pruning gives the reachable part or names its dangling transitions. -/
theorem result_prune (dfa : DFA) : dfa.prune.result =
    match dfa.reachablePart.dangling with
    | [] => .ok dfa.reachablePart
    | transitions => .error (.danglingTransitions transitions) := by
  rw [prune, Outcome.result_bind]
  change (match dfa.reachablePart.dangling with
    | [] => (return dfa.reachablePart : Outcome Error DFA)
    | transitions => .fail (.danglingTransitions transitions)).result = _
  cases dfa.reachablePart.dangling <;> rfl

theorem eq_of_result_prune {part : DFA} (pruned : dfa.prune.result = .ok part) :
    part = dfa.reachablePart := by
  rw [result_prune] at pruned
  split at pruned
  · exact (Except.ok.inj pruned).symm
  · contradiction

theorem eq_of_prune_error {error : Error} (refused : dfa.prune.result = .error error) :
    error = .danglingTransitions dfa.reachablePart.dangling := by
  rw [result_prune] at refused
  split at refused
  · contradiction
  · exact (Except.error.inj refused).symm

/-- Pruning reports the labels of the states that it removes, if there are any. -/
theorem events_prune (dfa : DFA) : dfa.prune.events =
    if dfa.unreachableLabels.isEmpty then [] else [.statesRemoved dfa.unreachableLabels] := by
  change _ ++ (match dfa.reachablePart.dangling with
    | [] => (return dfa.reachablePart : Outcome Error DFA)
    | transitions => .fail (.danglingTransitions transitions)).events = _
  cases dfa.reachablePart.dangling <;> exact List.append_nil _

end Kept

section Runs

/-- All states with a reachable label are kept, so the first of them is the same as before. -/
theorem find?_filter_reachable (reached : dfa.Reachable label) (states : List State) :
    (states.filter fun state => dfa.Reachable state.label).find? (·.label == label) =
      states.find? (·.label == label) := by
  rw [List.find?_filter]
  congr 1
  funext state
  by_cases same : state.label = label
  · simp [same, reached]
  · simp [same]

theorem state?_reachablePart (reached : dfa.Reachable label) :
    dfa.reachablePart.state? label = dfa.state? label := by
  rw [state?, states_reachablePart, find?_filter_reachable reached, state?]

theorem carrier?_reachablePart (reached : dfa.Reachable label) :
    dfa.reachablePart.carrier? label = dfa.carrier? label := by
  rw [carrier?, states_reachablePart, ← List.filter_reverse, find?_filter_reachable reached,
    carrier?]

/-- Nothing becomes unreachable by pruning. -/
theorem reachable_reachablePart_iff :
    dfa.reachablePart.Reachable label ↔ dfa.Reachable label := by
  constructor
  · intro reached
    induction reached with
    | initial isInitial => exact .initial isInitial
    | step _ carried known linked ih =>
      exact .step ih (carrier?_reachablePart ih ▸ carried) known linked
  · intro reached
    induction reached with
    | initial isInitial => exact .initial isInitial
    | step before carried known linked ih =>
      exact .step ih ((carrier?_reachablePart before).trans carried) known linked

theorem reachablePart_reachablePart (dfa : DFA) :
    dfa.reachablePart.reachablePart = dfa.reachablePart := by
  have states_eq : dfa.reachablePart.reachablePart.states = dfa.reachablePart.states := by
    simp only [states_reachablePart dfa.reachablePart, reachable_reachablePart_iff,
      states_reachablePart dfa, List.filter_filter, Bool.and_self]
  have finals_eq : dfa.reachablePart.reachablePart.finals = dfa.reachablePart.finals := by
    simp only [finals_reachablePart dfa.reachablePart, reachable_reachablePart_iff,
      finals_reachablePart dfa, List.filter_filter, Bool.and_self]
  calc dfa.reachablePart.reachablePart
      = { dfa.reachablePart with
          states := dfa.reachablePart.reachablePart.states
          finals := dfa.reachablePart.reachablePart.finals } := rfl
    _ = dfa.reachablePart := by rw [states_eq, finals_eq]

/-- A second pruning removes no states. -/
theorem unreachableLabels_reachablePart (dfa : DFA) :
    dfa.reachablePart.unreachableLabels = [] := by
  rw [unreachableLabels, List.filter_eq_nil_iff]
  intro label member
  obtain ⟨state, present, rfl⟩ := List.mem_map.mp member
  obtain ⟨_, reached⟩ := mem_states_reachablePart.mp present
  simp [contains_reachable, reachable_reachablePart_iff, reached]

/-- From a reachable label a word over the alphabet has the same run as before. -/
theorem follow?_reachablePart (distinct : dfa.labels.Nodup) (reached : dfa.Reachable label)
    (inside : ∀ symbol ∈ word, symbol ∈ dfa.alphabet) :
    dfa.reachablePart.follow? label word = dfa.follow? label word := by
  induction word generalizing label with
  | nil => exact state?_reachablePart reached
  | cons symbol rest ih =>
    obtain ⟨known, later⟩ := List.forall_mem_cons.mp inside
    rw [follow?, follow?, state?_reachablePart reached]
    refine Option.bind_congr fun state found => Option.bind_congr fun target linked => ?_
    have carried := (carrier?_eq_state? distinct label).trans found
    exact ih (.step reached carried known linked) later

theorem run?_reachablePart (distinct : dfa.labels.Nodup)
    (inside : ∀ symbol ∈ word, symbol ∈ dfa.alphabet) :
    dfa.reachablePart.run? word = dfa.run? word :=
  Option.bind_congr fun _ isInitial => follow?_reachablePart distinct (.initial isInitial) inside

end Runs

section Pruning

/-- The run of the word ends in a state whose label is among the final ones. Nothing forces these
labels to agree with the states that are final. -/
def EndsAtFinalLabel (dfa : DFA) (word : List Symbol) : Prop :=
  ∃ state, dfa.run? word = some state ∧ state.label ∈ dfa.finals

/-- One automaton is what pruning leaves of another one: the states and the final labels to which
chains of transitions lead, as they were and in their order, with the same meaning for every word
over the alphabet. Another pruning reports nothing, changes nothing and ends as the first. -/
structure IsPrunedFrom (part dfa : DFA) : Prop where
  reachable_iff : ∀ label, dfa.Reachable label ↔
    ∃ start, dfa.initial = some start ∧ Relation.ReflTransGen dfa.LeadsTo start label
  states_eq : part.states = dfa.states.filter fun state => dfa.Reachable state.label
  finals_eq : part.finals = dfa.finals.filter fun label => dfa.Reachable label
  initial_eq : part.initial = dfa.initial
  alphabet_eq : part.alphabet = dfa.alphabet
  policy_eq : part.policy = dfa.policy
  accepts_iff : ∀ word, (∀ symbol ∈ word, symbol ∈ dfa.alphabet) →
    (part.Accepts word ↔ dfa.Accepts word)
  endsAtFinalLabel_iff : ∀ word, (∀ symbol ∈ word, symbol ∈ dfa.alphabet) →
    (part.EndsAtFinalLabel word ↔ dfa.EndsAtFinalLabel word)
  prune_eq : part.prune = ⟨[], dfa.prune.result⟩
  reachablePart_eq : part.reachablePart = part

theorem accepts_reachablePart_iff (distinct : dfa.labels.Nodup)
    (inside : ∀ symbol ∈ word, symbol ∈ dfa.alphabet) :
    dfa.reachablePart.Accepts word ↔ dfa.Accepts word := by
  rw [Accepts, Accepts, run?_reachablePart distinct inside]

/-- A run of the reachable part ends in a reachable state, whose label stays final if it was. -/
theorem endsAtFinalLabel_reachablePart_iff (distinct : dfa.labels.Nodup)
    (inside : ∀ symbol ∈ word, symbol ∈ dfa.alphabet) :
    dfa.reachablePart.EndsAtFinalLabel word ↔ dfa.EndsAtFinalLabel word := by
  rw [EndsAtFinalLabel, EndsAtFinalLabel, run?_reachablePart distinct inside]
  refine exists_congr fun state => and_congr_right fun ended => ?_
  have kept : state ∈ dfa.reachablePart.states :=
    mem_of_run? ((run?_reachablePart distinct inside).trans ended)
  rw [finals_reachablePart, List.mem_filter, decide_eq_true_iff]
  exact and_iff_left (mem_states_reachablePart.mp kept).2

/-- A second pruning reports nothing and ends as the first one. -/
theorem prune_reachablePart (dfa : DFA) :
    dfa.reachablePart.prune = ⟨[], dfa.prune.result⟩ := by
  have result_eq : dfa.reachablePart.prune.result = dfa.prune.result := by
    rw [result_prune, result_prune, reachablePart_reachablePart]
  have events_eq : dfa.reachablePart.prune.events = [] := by
    rw [events_prune, unreachableLabels_reachablePart]
    rfl
  rw [← result_eq, ← events_eq]

/-- Pruning keeps exactly the reachable part of an automaton whose labels tell states apart. It cuts
the automaton down to this part also where it then refuses it for its dangling transitions. -/
theorem reachablePart_isPrunedFrom (distinct : dfa.labels.Nodup) :
    dfa.reachablePart.IsPrunedFrom dfa ∧
      (∀ part, dfa.prune.result = .ok part → part = dfa.reachablePart) ∧
      ∀ error, dfa.prune.result = .error error →
        error = .danglingTransitions dfa.reachablePart.dangling := by
  refine ⟨?_, fun _ => eq_of_result_prune, fun _ => eq_of_prune_error⟩
  exact
    { reachable_iff := fun _ => reachable_iff_exists_chain distinct
      states_eq := states_reachablePart dfa
      finals_eq := finals_reachablePart dfa
      initial_eq := rfl
      alphabet_eq := rfl
      policy_eq := rfl
      accepts_iff := fun _ => accepts_reachablePart_iff distinct
      endsAtFinalLabel_iff := fun _ => endsAtFinalLabel_reachablePart_iff distinct
      prune_eq := prune_reachablePart dfa
      reachablePart_eq := reachablePart_reachablePart dfa }

/-- A cycle, a state to which only a foreign symbol leads, and a transition to no state. -/
private def tangled : DFA where
  alphabet := ["0", "1", "0"]
  policy := .sparse
  states :=
    [⟨"X", ["x"], true, false, Table.ofList [("0", "A")]⟩,
     ⟨"A", ["a"], false, true, Table.ofList [("0", "B"), ("1", "missing"), ("2", "X")]⟩,
     ⟨"B", ["b"], true, false, Table.ofList [("0", "A"), ("1", "B")]⟩]
  initial := some "A"
  finals := ["B", "X", "missing"]

theorem reachablePart_isPrunedFrom_tangled :
    tangled.labels.Nodup ∧ tangled.reachablePart.IsPrunedFrom tangled ∧
      (∀ part, tangled.prune.result = .ok part → part = tangled.reachablePart) ∧
      ∀ error, tangled.prune.result = .error error →
        error = .danglingTransitions tangled.reachablePart.dangling := by
  have distinct : tangled.labels.Nodup := by decide
  exact ⟨distinct, reachablePart_isPrunedFrom distinct⟩

end Pruning

end Determinizer.DFA
