import Determinizer.DFA.Reachable
import Determinizer.Proofs.DFA.Run

/-! # What the walk visits

A label is reachable if it is initial or a transition leads to it from the last state that carries a
reachable label. The walk visits exactly the reachable labels: nothing else is ever waiting, and
whatever a visited label leads to has been visited when nothing waits any more.
-/

namespace Determinizer.DFA

/-- The last state that carries a label. -/
def carrier? (dfa : DFA) (label : Label) : Option State :=
  dfa.states.reverse.find? (·.label == label)

/-- A label to which transitions on symbols of the alphabet lead from the initial label. -/
inductive Reachable (dfa : DFA) : Label → Prop
  | initial {label : Label} (isInitial : dfa.initial = some label) : Reachable dfa label
  | step {label target : Label} {state : State} {symbol : Symbol} (reached : Reachable dfa label)
      (carried : dfa.carrier? label = some state) (known : symbol ∈ dfa.alphabet)
      (linked : state.transitions.get? symbol = some target) : Reachable dfa target

section Walk

variable {carriers : Std.HashMap Label State} {alphabet : List Symbol}
  {visited : Std.HashSet Label} {waiting : List Label} {label target : Label} {state : State}

theorem mem_successors :
    target ∈ state.successors alphabet ↔
      ∃ symbol ∈ alphabet, state.transitions.get? symbol = some target := by
  simp [State.successors]

theorem mem_walk_of_visited (member : label ∈ visited) :
    label ∈ walk carriers alphabet visited waiting := by
  fun_induction walk carriers alphabet visited waiting with
  | case1 => exact member
  | case2 visited first rest seen ih => exact ih member
  | case3 visited first rest fresh absent ih => exact ih (by simp [member])
  | case4 visited first rest fresh state carried ih => exact ih (by simp [member])

theorem mem_walk_of_waiting (member : label ∈ waiting) :
    label ∈ walk carriers alphabet visited waiting := by
  fun_induction walk carriers alphabet visited waiting with
  | case1 => simp at member
  | case2 visited first rest seen ih =>
    rcases List.mem_cons.mp member with rfl | later
    · exact mem_walk_of_visited (Std.HashSet.mem_iff_contains.mpr seen)
    · exact ih later
  | case3 visited first rest fresh absent ih =>
    rcases List.mem_cons.mp member with rfl | later
    · exact mem_walk_of_visited (by simp)
    · exact ih later
  | case4 visited first rest fresh state carried ih =>
    rcases List.mem_cons.mp member with rfl | later
    · exact mem_walk_of_visited (by simp)
    · exact ih (List.mem_append_right _ later)

/-- Whatever holds of the labels at hand and is kept by transitions holds of all visited labels. -/
theorem walk_preserves {P : Label → Prop} (atVisited : ∀ label ∈ visited, P label)
    (atWaiting : ∀ label ∈ waiting, P label)
    (kept : ∀ label state, P label → carriers[label]? = some state →
      ∀ target ∈ state.successors alphabet, P target) :
    ∀ label ∈ walk carriers alphabet visited waiting, P label := by
  fun_induction walk carriers alphabet visited waiting with
  | case1 => exact atVisited
  | case2 visited first rest seen ih =>
    exact ih atVisited fun label member => atWaiting label (List.mem_cons_of_mem _ member)
  | case3 visited first rest fresh absent ih =>
    have atFirst := atWaiting first List.mem_cons_self
    refine ih ?_ fun label member => atWaiting label (List.mem_cons_of_mem _ member)
    intro label member
    rcases Std.HashSet.mem_insert.mp member with same | old
    · exact beq_iff_eq.mp same ▸ atFirst
    · exact atVisited label old
  | case4 visited first rest fresh state carried ih =>
    have atFirst := atWaiting first List.mem_cons_self
    refine ih ?_ ?_
    · intro label member
      rcases Std.HashSet.mem_insert.mp member with same | old
      · exact beq_iff_eq.mp same ▸ atFirst
      · exact atVisited label old
    · intro label member
      rcases List.mem_append.mp member with new | later
      · exact kept first state atFirst carried label new
      · exact atWaiting label (List.mem_cons_of_mem _ later)

/-- Where a visited label leads has been visited or waits; this is so until nothing waits. -/
theorem walk_closed
    (closed : ∀ label ∈ visited, ∀ state, carriers[label]? = some state →
      ∀ target ∈ state.successors alphabet, target ∈ visited ∨ target ∈ waiting) :
    ∀ label ∈ walk carriers alphabet visited waiting, ∀ state, carriers[label]? = some state →
      ∀ target ∈ state.successors alphabet, target ∈ walk carriers alphabet visited waiting := by
  fun_induction walk carriers alphabet visited waiting with
  | case1 visited =>
    intro label member state carried target leads
    exact (closed label member state carried target leads).resolve_right List.not_mem_nil
  | case2 visited first rest seen ih =>
    apply ih
    intro label member state carried target leads
    rcases closed label member state carried target leads with old | waits
    · exact .inl old
    · rcases List.mem_cons.mp waits with rfl | later
      · exact .inl (Std.HashSet.mem_iff_contains.mpr seen)
      · exact .inr later
  | case3 visited first rest fresh absent ih =>
    apply ih
    intro label member state carried target leads
    rcases Std.HashSet.mem_insert.mp member with same | old
    · rw [← beq_iff_eq.mp same, absent] at carried
      contradiction
    · rcases closed label old state carried target leads with visitedBefore | waits
      · exact .inl (Std.HashSet.mem_insert.mpr (.inr visitedBefore))
      · rcases List.mem_cons.mp waits with rfl | later
        · exact .inl (by simp)
        · exact .inr later
  | case4 visited first rest fresh firstState firstCarried ih =>
    apply ih
    intro label member state carried target leads
    rcases Std.HashSet.mem_insert.mp member with same | old
    · rw [← beq_iff_eq.mp same, firstCarried, Option.some.injEq] at carried
      exact .inr (List.mem_append_left _ (carried ▸ leads))
    · rcases closed label old state carried target leads with visitedBefore | waits
      · exact .inl (Std.HashSet.mem_insert.mpr (.inr visitedBefore))
      · rcases List.mem_cons.mp waits with rfl | later
        · exact .inl (by simp)
        · exact .inr (List.mem_append_right _ later)

end Walk

theorem getElem?_insertMany (entries : List (Label × State)) (known : Std.HashMap Label State)
    (label : Label) :
    (known.insertMany entries)[label]? =
      ((entries.reverse.find? (·.1 == label)).map Prod.snd).or known[label]? := by
  induction entries generalizing known with
  | nil => simp
  | cons entry rest ih =>
    obtain ⟨first, state⟩ := entry
    rw [Std.HashMap.insertMany_cons, ih, Std.HashMap.getElem?_insert, List.reverse_cons,
      List.find?_append]
    cases List.find? (·.1 == label) rest.reverse with
    | some entry => rfl
    | none =>
      by_cases same : first = label
      · simp [same]
      · simp [same]

/-- The last state that carries a label stands for it. -/
theorem getElem?_byLabel (dfa : DFA) (label : Label) :
    (byLabel dfa.states)[label]? = dfa.carrier? label := by
  rw [byLabel, Std.HashMap.ofList_eq_insertMany_empty, getElem?_insertMany, carrier?,
    ← List.map_reverse, List.find?_map]
  simp [Function.comp_def]

/-- The walk visits exactly the reachable labels. -/
theorem mem_reachable {dfa : DFA} {label : Label} : label ∈ dfa.reachable ↔ dfa.Reachable label := by
  constructor
  · refine walk_preserves (by simp) ?_ ?_ label
    · intro label member
      exact .initial (Option.mem_toList.mp member)
    · intro label state reached carried target leads
      rw [getElem?_byLabel] at carried
      obtain ⟨symbol, known, linked⟩ := mem_successors.mp leads
      exact .step reached carried known linked
  · intro reached
    induction reached with
    | initial isInitial => exact mem_walk_of_waiting (Option.mem_toList.mpr isInitial)
    | step _ carried known linked ih =>
      rw [← getElem?_byLabel] at carried
      exact walk_closed (by simp) _ ih _ carried _ (mem_successors.mpr ⟨_, known, linked⟩)

/-- With distinct labels there is only one state to stand for a label. -/
theorem carrier?_eq_state? {dfa : DFA} (distinct : dfa.labels.Nodup) (label : Label) :
    dfa.carrier? label = dfa.state? label := by
  cases found : dfa.carrier? label with
  | none =>
    refine (List.find?_eq_none.mpr fun state member => ?_).symm
    exact List.find?_eq_none.mp found state (List.mem_reverse.mpr member)
  | some state =>
    have member : state ∈ dfa.states := List.mem_reverse.mp (List.mem_of_find?_eq_some found)
    have same : state.label = label := by simpa using List.find?_some found
    exact ((state?_eq_some_iff distinct).mpr ⟨member, same⟩).symm

end Determinizer.DFA
