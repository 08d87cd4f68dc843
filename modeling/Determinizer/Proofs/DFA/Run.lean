import Determinizer.DFA.Basic
import Mathlib.Data.List.Nodup

/-! # Runs of a deterministic automaton

A run follows the labels that transitions name, one symbol at a time. It is undefined where a
transition is missing and where a label is carried by no state, and otherwise ends in a state. A
word is accepted if its run from the initial label ends in a final state.
-/

namespace Determinizer.DFA

/-- The state to which a word leads from a label. -/
def follow? (dfa : DFA) : Label → List Symbol → Option State
  | label, [] => dfa.state? label
  | label, symbol :: word =>
    (dfa.state? label).bind fun state =>
      (state.transitions.get? symbol).bind fun target => dfa.follow? target word

/-- The state to which a word leads from the initial label. -/
def run? (dfa : DFA) (word : List Symbol) : Option State :=
  dfa.initial.bind fun label => dfa.follow? label word

/-- The run of the word ends in a final state. -/
def Accepts (dfa : DFA) (word : List Symbol) : Prop :=
  ∃ state, dfa.run? word = some state ∧ state.isFinal = true

variable {dfa : DFA} {state target : State} {label : Label} {symbol : Symbol} {word : List Symbol}

theorem mem_of_state? (found : dfa.state? label = some state) :
    state ∈ dfa.states ∧ state.label = label :=
  ⟨List.mem_of_find?_eq_some found, by simpa using List.find?_some found⟩

theorem label_mem_labels (member : state ∈ dfa.states) : state.label ∈ dfa.labels :=
  List.mem_map_of_mem member

/-- Distinct labels identify states. -/
theorem eq_of_label_eq (distinct : dfa.labels.Nodup) (member : state ∈ dfa.states)
    (other : target ∈ dfa.states) (same : state.label = target.label) : state = target :=
  List.inj_on_of_nodup_map distinct member other same

/-- With distinct labels a look-up finds every state. -/
theorem state?_label (distinct : dfa.labels.Nodup) (member : state ∈ dfa.states) :
    dfa.state? state.label = some state := by
  cases found : dfa.state? state.label with
  | none =>
    have absent := List.find?_eq_none.mp found state member
    simp at absent
  | some other =>
    obtain ⟨inside, same⟩ := mem_of_state? found
    rw [eq_of_label_eq distinct inside member same]

theorem state?_eq_some_iff (distinct : dfa.labels.Nodup) :
    dfa.state? label = some state ↔ state ∈ dfa.states ∧ state.label = label := by
  refine ⟨mem_of_state?, ?_⟩
  rintro ⟨member, rfl⟩
  exact state?_label distinct member

theorem follow?_nil : dfa.follow? label [] = dfa.state? label := rfl

/-- One symbol of a run that begins in a state of an automaton with distinct labels. -/
theorem follow?_cons (distinct : dfa.labels.Nodup) (member : state ∈ dfa.states) :
    dfa.follow? state.label (symbol :: word) =
      (state.transitions.get? symbol).bind fun target => dfa.follow? target word := by
  rw [follow?, state?_label distinct member, Option.bind_some]

/-- A run ends in a state of the automaton. -/
theorem mem_of_follow? (ended : dfa.follow? label word = some state) : state ∈ dfa.states := by
  induction word generalizing label with
  | nil => exact (mem_of_state? ended).1
  | cons symbol rest ih =>
    obtain ⟨before, _, ended⟩ := Option.bind_eq_some_iff.mp ended
    obtain ⟨target, _, ended⟩ := Option.bind_eq_some_iff.mp ended
    exact ih ended

theorem mem_of_run? (ended : dfa.run? word = some state) : state ∈ dfa.states := by
  obtain ⟨label, _, followed⟩ := Option.bind_eq_some_iff.mp ended
  exact mem_of_follow? followed

/-- A run can be cut after any part of its word. -/
theorem follow?_append (label : Label) (first second : List Symbol) :
    dfa.follow? label (first ++ second) =
      (dfa.follow? label first).bind fun state => dfa.follow? state.label second := by
  induction first generalizing label with
  | nil =>
    rw [List.nil_append, follow?_nil]
    cases found : dfa.state? label with
    | none => cases second <;> simp [follow?, found]
    | some state => rw [Option.bind_some, (mem_of_state? found).2]
  | cons symbol rest ih =>
    simp only [List.cons_append, follow?, ih, Option.bind_assoc]

end Determinizer.DFA
