import Determinizer.Proofs.DFA.Reachability
import Mathlib.Data.Finset.Card
import Mathlib.Order.Bounds.Basic

/-! # The walk ends with the closure

The labels that wait to be visited stand in line, the initial one first. A turn takes the first of
them: a label that was visited before is dropped, any other is visited, and where a state carries it
the targets of that state which were not visited yet join the line. Labels may join it many times, and
labels that no state carries are visited too. Still every turn takes one label from the line, and only
the first visit to the label of a state adds any, one for each symbol of the alphabet at most. So the
length of the line and the labels of states that are still to be visited, counted once for each
symbol, become fewer with every turn.

When nothing waits any more, the visited labels are the least set that holds the initial label and,
with the label of a state, all targets of the last state that carries it.
-/

namespace Determinizer.DFA

/-- A walk on its way: what was visited, and what waits in line. The initial label of an automaton
without one is `none`. -/
structure Walk where
  visited : Finset (Option Label)
  waiting : List (Option Label)

namespace Walk

variable {dfa : DFA} {walk next : Walk} {label : Option Label} {waiting : List (Option Label)}
  {state : State} {turns : Nat}

def start (dfa : DFA) : Walk := ⟨∅, [dfa.initial]⟩

/-- The targets of a state that join the line, in the order of the alphabet. -/
def joining (dfa : DFA) (visited : Finset (Option Label)) (state : State) : List (Option Label) :=
  ((state.successors dfa.alphabet).map some).filter (· ∉ visited)

/-- The walk after one more turn, if anything waits. -/
def turn? (dfa : DFA) : Walk → Option Walk
  | ⟨_, []⟩ => none
  | ⟨visited, label :: waiting⟩ =>
    if label ∈ visited then some ⟨visited, waiting⟩
    else
      match label.bind dfa.carrier? with
      | none => some ⟨insert label visited, waiting⟩
      | some state =>
        some ⟨insert label visited, waiting ++ joining dfa (insert label visited) state⟩

/-- The walk after so many turns, or as it ends if it ends before. -/
def after (dfa : DFA) : Nat → Walk → Walk
  | 0, walk => walk
  | turns + 1, walk =>
    match walk.turn? dfa with
    | none => walk
    | some next => after dfa turns next

/-- What a turn does with the label that it takes from the line. -/
inductive Turn (dfa : DFA) : Walk → Walk → Prop
  | dropped {visited label waiting} (seen : label ∈ visited) :
      Turn dfa ⟨visited, label :: waiting⟩ ⟨visited, waiting⟩
  | visitedAlone {visited label waiting} (fresh : label ∉ visited)
      (uncarried : label.bind dfa.carrier? = none) :
      Turn dfa ⟨visited, label :: waiting⟩ ⟨insert label visited, waiting⟩
  | followed {visited label waiting state} (fresh : label ∉ visited)
      (carried : label.bind dfa.carrier? = some state) :
      Turn dfa ⟨visited, label :: waiting⟩
        ⟨insert label visited, waiting ++ joining dfa (insert label visited) state⟩

theorem turn?_eq_some_iff : walk.turn? dfa = some next ↔ Turn dfa walk next := by
  constructor
  · intro taken
    rcases walk with ⟨visited, _ | ⟨label, waiting⟩⟩
    · contradiction
    rw [turn?] at taken
    split at taken
    · rename_i seen
      obtain rfl := Option.some.inj taken
      exact .dropped seen
    rename_i fresh
    split at taken
    · rename_i uncarried
      obtain rfl := Option.some.inj taken
      exact .visitedAlone fresh uncarried
    · rename_i state carried
      obtain rfl := Option.some.inj taken
      exact .followed fresh carried
  · intro turn
    cases turn with
    | dropped seen => rw [turn?, if_pos seen]
    | visitedAlone fresh uncarried => rw [turn?, if_neg fresh, uncarried]
    | followed fresh carried => rw [turn?, if_neg fresh, carried]

/-- A walk is over when nothing waits, and only then. -/
theorem turn?_eq_none_iff : walk.turn? dfa = none ↔ walk.waiting = [] := by
  rcases walk with ⟨visited, _ | ⟨label, waiting⟩⟩
  · exact iff_of_true rfl rfl
  · refine iff_of_false ?_ (List.cons_ne_nil _ _)
    rw [turn?]
    split
    · exact Option.some_ne_none _
    · split <;> exact Option.some_ne_none _

section Length

/-- The labels that states carry. -/
def carried (dfa : DFA) : Finset (Option Label) := dfa.labels.toFinset.map .some

/-- How many turns are left at most. -/
def turnsLeft (dfa : DFA) (walk : Walk) : Nat :=
  walk.waiting.length + dfa.alphabet.length * (carried dfa \ walk.visited).card

theorem mem_carried (found : label.bind dfa.carrier? = some state) : label ∈ carried dfa := by
  obtain ⟨name, rfl, found⟩ := Option.bind_eq_some_iff.mp found
  have member : state ∈ dfa.states := List.mem_reverse.mp (List.mem_of_find?_eq_some found)
  have same : state.label = name := by simpa using List.find?_some found
  apply Finset.mem_map_of_mem
  exact List.mem_toFinset.mpr (List.mem_map.mpr ⟨state, member, same⟩)

theorem length_joining_le (dfa : DFA) (visited : Finset (Option Label)) (state : State) :
    (joining dfa visited state).length ≤ dfa.alphabet.length := by
  calc
    (joining dfa visited state).length ≤ ((state.successors dfa.alphabet).map some).length :=
      List.length_filter_le ..
    _ = (state.successors dfa.alphabet).length := List.length_map ..
    _ ≤ dfa.alphabet.length := List.length_filterMap_le ..

/-- Every turn leaves fewer turns. -/
theorem turnsLeft_lt (turn : Turn dfa walk next) : turnsLeft dfa next < turnsLeft dfa walk := by
  cases turn with
  | dropped seen =>
    simp only [turnsLeft, List.length_cons]
    omega
  | @visitedAlone visited label waiting fresh uncarried =>
    have fewer : (carried dfa \ insert label visited).card ≤ (carried dfa \ visited).card := by
      apply Finset.card_le_card
      exact Finset.sdiff_subset_sdiff subset_rfl (Finset.subset_insert ..)
    have product := Nat.mul_le_mul_left dfa.alphabet.length fewer
    simp only [turnsLeft, List.length_cons]
    omega
  | @followed visited label waiting state fresh found =>
    have present : label ∈ carried dfa \ visited :=
      Finset.mem_sdiff.mpr ⟨mem_carried found, fresh⟩
    have fewer : (carried dfa \ insert label visited).card + 1 = (carried dfa \ visited).card := by
      rw [Finset.sdiff_insert, Finset.card_erase_add_one present]
    have joined := length_joining_le dfa (insert label visited) state
    simp only [turnsLeft, List.length_cons, List.length_append, ← fewer, Nat.mul_succ]
    omega

/-- After as many turns as are left nothing waits. -/
theorem waiting_after (enough : turnsLeft dfa walk ≤ turns) :
    (after dfa turns walk).waiting = [] := by
  induction turns generalizing walk with
  | zero =>
    have none : walk.waiting.length = 0 := by
      rw [turnsLeft] at enough
      omega
    exact List.length_eq_zero_iff.mp none
  | succ turns ih =>
    rw [after]
    split
    · rename_i finished
      exact turn?_eq_none_iff.mp finished
    · rename_i next taken
      have fewer := turnsLeft_lt (turn?_eq_some_iff.mp taken)
      exact ih (by omega)

end Length

end Walk

/-- The labels hold the initial one and, with a label, all targets on symbols of the alphabet of the
last state that carries it. -/
structure IsClosed (dfa : DFA) (labels : Set (Option Label)) : Prop where
  initial : dfa.initial ∈ labels
  targets : ∀ label state, some label ∈ labels → dfa.carrier? label = some state →
    ∀ symbol ∈ dfa.alphabet, ∀ target, state.transitions.get? symbol = some target →
      some target ∈ labels

namespace Walk

variable {dfa : DFA} {walk next : Walk} {label : Option Label} {name target : Label}
  {state : State} {turns : Nat}

section Closure

/-- The label was visited or waits in line. -/
def HasMet (walk : Walk) (label : Option Label) : Prop :=
  label ∈ walk.visited ∨ label ∈ walk.waiting

theorem mem_joining {visited : Finset (Option Label)} :
    label ∈ joining dfa visited state ↔
      (∃ target ∈ state.successors dfa.alphabet, some target = label) ∧ label ∉ visited := by
  rw [joining, List.mem_filter, List.mem_map, decide_eq_true_iff]

/-- A turn loses no label. -/
theorem HasMet.turn (met : walk.HasMet label) (turn : Turn dfa walk next) : next.HasMet label := by
  cases turn with
  | dropped seen =>
    rcases met with visited | waits
    · exact .inl visited
    · rcases List.mem_cons.mp waits with rfl | later
      · exact .inl seen
      · exact .inr later
  | visitedAlone fresh uncarried =>
    rcases met with visited | waits
    · exact .inl (Finset.mem_insert_of_mem visited)
    · rcases List.mem_cons.mp waits with rfl | later
      · exact .inl (Finset.mem_insert_self ..)
      · exact .inr later
  | followed fresh found =>
    rcases met with visited | waits
    · exact .inl (Finset.mem_insert_of_mem visited)
    · rcases List.mem_cons.mp waits with rfl | later
      · exact .inl (Finset.mem_insert_self ..)
      · exact .inr (List.mem_append_left _ later)

/-- Where a label is visited for the first time, its targets are met. -/
theorem hasMet_target (turn : Turn dfa walk next) (visited : some name ∈ next.visited)
    (found : dfa.carrier? name = some state) (leads : target ∈ state.successors dfa.alphabet) :
    some name ∈ walk.visited ∨ next.HasMet (some target) := by
  cases turn with
  | dropped seen => exact .inl visited
  | visitedAlone fresh uncarried =>
    rcases Finset.mem_insert.mp visited with rfl | before
    · rw [Option.bind_some, found] at uncarried
      contradiction
    · exact .inl before
  | @followed before label waiting carrier fresh carried =>
    rcases Finset.mem_insert.mp visited with rfl | earlier
    · rw [Option.bind_some, found] at carried
      obtain rfl := Option.some.inj carried
      by_cases known : some target ∈ insert (some name) before
      · exact .inr (.inl known)
      · have joins := mem_joining.mpr ⟨⟨target, leads, rfl⟩, known⟩
        exact .inr (.inr (List.mem_append_right _ joins))
    · exact .inl earlier

/-- A turn meets nothing new but targets of a label that was met. -/
theorem hasMet_before (turn : Turn dfa walk next) (met : next.HasMet label) :
    walk.HasMet label ∨ ∃ name state target, walk.HasMet (some name) ∧
      dfa.carrier? name = some state ∧ target ∈ state.successors dfa.alphabet ∧
      some target = label := by
  cases turn with
  | dropped seen =>
    exact .inl (met.imp_right (List.mem_cons_of_mem _))
  | visitedAlone fresh uncarried =>
    rcases met with visited | waits
    · rcases Finset.mem_insert.mp visited with rfl | before
      · exact .inl (.inr List.mem_cons_self)
      · exact .inl (.inl before)
    · exact .inl (.inr (List.mem_cons_of_mem _ waits))
  | @followed visited first waiting state fresh found =>
    rcases met with visited | waits
    · rcases Finset.mem_insert.mp visited with rfl | before
      · exact .inl (.inr List.mem_cons_self)
      · exact .inl (.inl before)
    · rcases List.mem_append.mp waits with before | joins
      · exact .inl (.inr (List.mem_cons_of_mem _ before))
      · obtain ⟨⟨target, leads, same⟩, _⟩ := mem_joining.mp joins
        obtain ⟨name, rfl, found⟩ := Option.bind_eq_some_iff.mp found
        exact .inr ⟨name, state, target, .inr List.mem_cons_self, found, leads, same⟩

/-- A walk has not lost the initial label nor a target of what it visited, and has not strayed. -/
structure OnTrack (dfa : DFA) (walk : Walk) : Prop where
  initial : walk.HasMet dfa.initial
  targets : ∀ name state, some name ∈ walk.visited → dfa.carrier? name = some state →
    ∀ target ∈ state.successors dfa.alphabet, walk.HasMet (some target)
  within : ∀ labels, dfa.IsClosed labels → ∀ label, walk.HasMet label → label ∈ labels

theorem onTrack_start (dfa : DFA) : OnTrack dfa (start dfa) where
  initial := .inr List.mem_cons_self
  targets := by
    intro name state visited
    exact absurd visited (Finset.notMem_empty _)
  within := by
    intro labels closed label met
    rcases met with visited | waits
    · exact absurd visited (Finset.notMem_empty _)
    · exact List.mem_singleton.mp waits ▸ closed.initial

theorem OnTrack.turn (onTrack : OnTrack dfa walk) (turn : Turn dfa walk next) :
    OnTrack dfa next where
  initial := onTrack.initial.turn turn
  targets := by
    intro name state visited found target leads
    rcases hasMet_target turn visited found leads with before | met
    · exact (onTrack.targets name state before found target leads).turn turn
    · exact met
  within := by
    intro labels closed label met
    rcases hasMet_before turn met with before | ⟨name, state, target, before, found, leads, rfl⟩
    · exact onTrack.within labels closed label before
    · obtain ⟨symbol, known, linked⟩ := mem_successors.mp leads
      have inside := onTrack.within labels closed (some name) before
      exact closed.targets name state inside found symbol known target linked

theorem OnTrack.after (onTrack : OnTrack dfa walk) (turns : Nat) :
    OnTrack dfa (after dfa turns walk) := by
  induction turns generalizing walk with
  | zero => exact onTrack
  | succ turns ih =>
    rw [Walk.after]
    split
    · exact onTrack
    · rename_i next taken
      exact ih (onTrack.turn (turn?_eq_some_iff.mp taken))

/-- Once nothing waits, the visited labels are closed. -/
theorem OnTrack.isClosed (onTrack : OnTrack dfa walk) (finished : walk.waiting = []) :
    dfa.IsClosed (walk.visited : Set (Option Label)) := by
  have visited_of_met : ∀ label, walk.HasMet label → label ∈ walk.visited := by
    intro label met
    exact met.resolve_right (finished ▸ List.not_mem_nil)
  refine ⟨visited_of_met _ onTrack.initial, ?_⟩
  intro name state visited found symbol known target linked
  apply visited_of_met
  exact onTrack.targets name state visited found target (mem_successors.mpr ⟨symbol, known, linked⟩)

end Closure

/-- The walk has come to its end: nothing waits, and the visited labels are the least set that holds
the initial label and with each label its targets. Pruning goes by these labels. -/
structure IsComplete (dfa : DFA) (walk : Walk) : Prop where
  waiting_eq : walk.waiting = []
  isLeast : IsLeast {labels | dfa.IsClosed labels} (walk.visited : Set (Option Label))
  mem_visited_iff : ∀ name, some name ∈ walk.visited ↔ name ∈ dfa.reachable
  none_mem_visited_iff : none ∈ walk.visited ↔ dfa.initial = none

/-- The reachable labels, with `none` where there is no initial one, are closed. -/
theorem isClosed_reachable (dfa : DFA) :
    dfa.IsClosed {label | label = dfa.initial ∨ ∃ name, label = some name ∧ dfa.Reachable name} where
  initial := .inl rfl
  targets := by
    rintro name state (isInitial | ⟨_, same, reached⟩) found symbol known target linked
    · exact .inr ⟨target, rfl, .step (.initial isInitial.symm) found known linked⟩
    · obtain rfl := Option.some.inj same
      exact .inr ⟨target, rfl, .step reached found known linked⟩

theorem mem_of_reachable {labels : Set (Option Label)} (closed : dfa.IsClosed labels)
    (reached : dfa.Reachable name) : some name ∈ labels := by
  induction reached with
  | initial isInitial => exact isInitial ▸ closed.initial
  | step _ found known linked ih => exact closed.targets _ _ ih found _ known _ linked

theorem OnTrack.isComplete (onTrack : OnTrack dfa walk) (finished : walk.waiting = []) :
    IsComplete dfa walk where
  waiting_eq := finished
  isLeast := by
    refine ⟨onTrack.isClosed finished, fun labels closed label visited => ?_⟩
    exact onTrack.within labels closed label (.inl visited)
  mem_visited_iff := by
    intro name
    rw [mem_reachable]
    constructor
    · intro visited
      rcases onTrack.within _ (isClosed_reachable dfa) _ (.inl visited) with
        isInitial | ⟨_, same, reached⟩
      · exact .initial isInitial.symm
      · exact Option.some.inj same ▸ reached
    · exact fun reached => mem_of_reachable (onTrack.isClosed finished) reached
  none_mem_visited_iff := by
    constructor
    · intro visited
      rcases onTrack.within _ (isClosed_reachable dfa) _ (.inl visited) with
        isInitial | ⟨_, impossible, _⟩
      · exact isInitial.symm
      · contradiction
    · intro missing
      have initial := (onTrack.isClosed finished).initial
      rwa [missing] at initial

end Walk

/-- The walk from the initial label ends for every automaton, after a turn for the initial label and
one for each symbol and each label of a state at most, and it ends with the closure. -/
theorem walk_ends (dfa : DFA) :
    ∃ turns ≤ 1 + dfa.alphabet.length * dfa.labels.toFinset.card,
      (Walk.after dfa turns (Walk.start dfa)).IsComplete dfa := by
  have turns_eq : Walk.turnsLeft dfa (Walk.start dfa) =
      1 + dfa.alphabet.length * dfa.labels.toFinset.card := by
    rw [Walk.turnsLeft, Walk.start, Finset.sdiff_empty, Walk.carried, Finset.card_map,
      List.length_singleton]
  refine ⟨_, le_rfl, ?_⟩
  apply ((Walk.onTrack_start dfa).after _).isComplete
  exact Walk.waiting_after turns_eq.le

/-- A label that two states carry, a loop, a cycle, a repeated symbol and targets that no state
carries. -/
private def cyclic : DFA where
  alphabet := ["0", "1", "0"]
  policy := .sparse
  states :=
    [⟨"A", ["a"], false, true, Table.ofList [("0", "B"), ("1", "A")]⟩,
     ⟨"B", ["b"], false, false, Table.ofList [("0", "unseen")]⟩,
     ⟨"B", ["c"], true, false, Table.ofList [("0", "A"), ("1", "lost")]⟩]
  initial := some "A"
  finals := ["B"]

example : (Walk.after cyclic 4 (Walk.start cyclic)).waiting = [] ∧
    (Walk.after cyclic 4 (Walk.start cyclic)).visited = {some "A", some "B", some "lost"} := by
  decide +kernel

end Determinizer.DFA
