import Determinizer.DFA.Drawing
import Determinizer.Proofs.Subset.Enumeration
import Determinizer.Proofs.Text.Words

/-! # A graph shows every transition once

Transitions between the same two labels share an edge. Sharing loses none of them and repeats none:
every transition has its ends among the ends of the edges, which are all different, so the edges share
out the transitions. The label of an edge joins its symbols by commas, and cutting it at the commas
gives them back if no symbol holds one. So all transitions are read off the edges, and besides these
there is one edge more, from the node without a name to the initial label.
-/

namespace Determinizer

namespace Dot

/-- An edge of a graph as it was added to it. -/
structure Edge where
  tail : String
  head : String
  label : Option String
  deriving DecidableEq

/-- A node of a graph as it was added to it. -/
structure Node where
  name : String
  shape : String
  deriving DecidableEq

def Statement.edge? : Statement → Option Edge
  | edge tail head label => some ⟨tail, head, label⟩
  | _ => none

def Statement.node? : Statement → Option Node
  | node name shape => some ⟨name, shape⟩
  | _ => none

/-- The edges of a graph in the order in which they were added. -/
def Graph.edges (graph : Graph) : List Edge := graph.statements.filterMap Statement.edge?

/-- The nodes of a graph in the order in which they were added. -/
def Graph.nodes (graph : Graph) : List Node := graph.statements.filterMap Statement.node?

/-- The pieces of a text between its commas. -/
def cutAtCommas (text : String) : List String :=
  (Text.pieces (· == ',') text.toList).map String.ofList

theorem cutAtCommas_intercalate {texts : List String} (filled : texts ≠ [])
    (uncut : ∀ text ∈ texts, ',' ∉ text.toList) : cutAtCommas (",".intercalate texts) = texts := by
  rw [cutAtCommas, String.toList_intercalate]
  change List.map String.ofList (Text.pieces _ ([','].intercalate _)) = texts
  rw [Text.pieces_intercalate (by decide) (by simpa using filled), Text.map_ofList_map_toList]
  intro part member c inside
  obtain ⟨text, present, rfl⟩ := List.mem_map.mp member
  rw [beq_eq_false_iff_ne]
  rintro rfl
  exact uncut text present inside

namespace Edge

def ends (edge : Edge) : String × String := (edge.tail, edge.head)

/-- The pieces of the label of an edge between its commas. -/
def symbols (edge : Edge) : List String := (edge.label.map cutAtCommas).getD []

/-- The transitions that an edge shows, one for each piece of its label. -/
def transitions (edge : Edge) : List DFA.Transition :=
  edge.symbols.map (⟨edge.tail, ·, edge.head⟩)

end Edge

end Dot

namespace DFA

variable {dfa : DFA} {initial : Label} {ends : Label × Label} {all : List Transition}

/-- A graph shows the states of an automaton, where it starts and, on some edges, its transitions. -/
structure ShownBy (dfa : DFA) (initial : Label) (graph : Dot.Graph) (edges : List Dot.Edge) :
    Prop where
  /-- Besides the node without a name there is one node for each entry of the states. -/
  nodes : ∃ named, graph.nodes = named ++ [⟨"", "none"⟩] ∧
    List.Forall₂ (fun state node => node.name = state.label ∧
      (node.shape = "doublecircle" ↔ state.isFinal = true)) dfa.states named
  edges_eq : graph.edges = ⟨"", initial, none⟩ :: edges
  /-- No other edge than the first starts at the node without a name. -/
  named : ∀ edge ∈ edges, edge.tail ≠ ""
  /-- There is one edge for each two labels that a transition joins, in order of first appearance. -/
  ends_eq : edges.map Dot.Edge.ends = (dfa.transitions.map (·.ends)).eraseDups
  ends_nodup : (edges.map Dot.Edge.ends).Nodup
  symbols_eq : ∀ edge ∈ edges, edge.symbols =
    (dfa.transitions.filter (·.ends = edge.ends)).map (·.symbol)
  /-- All edges together show the transitions of the automaton, each as often as it occurs. -/
  transitions_perm : (edges.flatMap Dot.Edge.transitions).Perm dfa.transitions

section Sharing

/-- Keys share out the items that have one of them as their key. -/
theorem flatMap_filter_mem_perm {α κ : Type} [DecidableEq κ] (key : α → κ) {keys : List κ}
    (distinct : keys.Nodup) (items : List α) :
    (keys.flatMap fun k => items.filter (key · = k)).Perm (items.filter (key · ∈ keys)) := by
  induction keys with
  | nil => simp
  | cons first rest ih =>
    obtain ⟨fresh, later⟩ := List.nodup_cons.mp distinct
    have own : (items.filter (key · ∈ first :: rest)).filter (key · = first) =
        items.filter (key · = first) := by
      rw [List.filter_filter]
      refine List.filter_congr fun item _ => ?_
      by_cases same : key item = first <;> simp [same]
    have others : (items.filter (key · ∈ first :: rest)).filter (fun item => !(key item = first)) =
        items.filter (key · ∈ rest) := by
      rw [List.filter_filter]
      refine List.filter_congr fun item _ => ?_
      by_cases same : key item = first
      · simp [same, fresh]
      · simp [same]
    have parted := List.filter_append_perm (key · = first) (items.filter (key · ∈ first :: rest))
    rw [own, others] at parted
    rw [List.flatMap_cons]
    exact ((ih later).append_left _).trans parted

/-- Keys share out all items if every item has one of them as its key. -/
theorem flatMap_filter_perm {α κ : Type} [DecidableEq κ] {key : α → κ} {keys : List κ}
    {items : List α} (distinct : keys.Nodup) (covered : ∀ item ∈ items, key item ∈ keys) :
    (keys.flatMap fun k => items.filter (key · = k)).Perm items := by
  have shared := flatMap_filter_mem_perm key distinct items
  rwa [List.filter_eq_self.mpr fun item member => decide_eq_true (covered item member)] at shared

/-- The transitions between two labels are had back from their symbols. -/
theorem map_symbolsBetween (all : List Transition) (ends : Label × Label) :
    (symbolsBetween all ends).map (fun symbol => (⟨ends.1, symbol, ends.2⟩ : Transition)) =
      all.filter (·.ends = ends) := by
  rw [symbolsBetween, List.map_map]
  refine (List.map_congr_left fun transition member => ?_).trans (List.map_id _)
  have same : transition.ends = ends := by simpa using (List.mem_filter.mp member).2
  rw [← same]
  rfl

/-- The ends of all transitions share the transitions out. -/
theorem flatMap_symbolsBetween_perm (all : List Transition) :
    ((all.map (·.ends)).eraseDups.flatMap fun ends =>
      (symbolsBetween all ends).map (fun symbol => (⟨ends.1, symbol, ends.2⟩ : Transition))).Perm
      all := by
  simp only [map_symbolsBetween]
  apply flatMap_filter_perm (Subset.nodup_eraseDups _)
  intro transition member
  exact List.mem_eraseDups.mpr (List.mem_map_of_mem member)

end Sharing

/-- The edge that transitions between the same two labels share. -/
def sharedEdge (all : List Transition) (ends : Label × Label) : Dot.Edge :=
  ⟨ends.1, ends.2, some (",".intercalate (symbolsBetween all ends))⟩

/-- The edges that show the transitions. -/
def sharedEdges (all : List Transition) : List Dot.Edge :=
  (all.map (·.ends)).eraseDups.map (sharedEdge all)

theorem mem_sharedEdges {edge : Dot.Edge} : edge ∈ sharedEdges all ↔
    ∃ ends, ends ∈ all.map (·.ends) ∧ sharedEdge all ends = edge := by
  simp only [sharedEdges, List.mem_map (f := sharedEdge all), List.mem_eraseDups]

/-- An edge that transitions share shows their symbols, if none of them holds a comma. -/
theorem symbols_sharedEdge (joined : ends ∈ all.map (·.ends))
    (uncut : ∀ transition ∈ all, ',' ∉ transition.symbol.toList) :
    (sharedEdge all ends).symbols = symbolsBetween all ends := by
  apply Dot.cutAtCommas_intercalate
  · obtain ⟨transition, member, rfl⟩ := List.mem_map.mp joined
    apply List.ne_nil_of_mem (a := transition.symbol)
    exact List.mem_map_of_mem (List.mem_filter.mpr ⟨member, decide_eq_true rfl⟩)
  · intro symbol shown
    obtain ⟨transition, member, rfl⟩ := List.mem_map.mp shown
    exact uncut transition (List.mem_filter.mp member).1

theorem transitions_sharedEdges_perm (uncut : ∀ transition ∈ all, ',' ∉ transition.symbol.toList) :
    ((sharedEdges all).flatMap Dot.Edge.transitions).Perm all := by
  rw [sharedEdges, List.flatMap_map]
  have shown : ∀ ends ∈ (all.map (·.ends)).eraseDups, (sharedEdge all ends).transitions =
      (symbolsBetween all ends).map (⟨ends.1, ·, ends.2⟩) := by
    intro ends member
    rw [Dot.Edge.transitions, symbols_sharedEdge (List.mem_eraseDups.mp member) uncut]
    rfl
  rw [List.flatMap_congr shown]
  exact flatMap_symbolsBetween_perm all

section Graph

theorem filterMap_map_node (states : List State) :
    (states.map (·.node)).filterMap Dot.Statement.edge? = [] ∧
      (states.map (·.node)).filterMap Dot.Statement.node? = states.map fun state =>
        ⟨state.label, if state.isFinal then "doublecircle" else "circle"⟩ := by
  constructor
  · simp [State.node, Dot.Statement.edge?]
  · simp [State.node, Dot.Statement.node?, Function.comp_def]

theorem filterMap_mergedEdges (all : List Transition) :
    ((mergedEdges all).map mergedEdge).filterMap Dot.Statement.edge? = sharedEdges all ∧
      ((mergedEdges all).map mergedEdge).filterMap Dot.Statement.node? = [] := by
  rw [mergedEdges_eq, List.map_map, List.filterMap_map, List.filterMap_map]
  constructor
  · exact congrFun List.filterMap_eq_map _
  · exact List.filterMap_eq_nil_iff.mpr fun _ _ => rfl

/-- An automaton that has an initial state has a graph: nodes for the states and one without a name,
then the edge to the initial label and those that transitions share. -/
theorem exists_graph? (isInitial : dfa.initial = some initial) :
    ∃ graph, dfa.graph? = some graph ∧
      graph.edges = ⟨"", initial, none⟩ :: sharedEdges dfa.transitions ∧
      graph.nodes = dfa.states.map (fun state =>
        ⟨state.label, if state.isFinal then "doublecircle" else "circle"⟩) ++ [⟨"", "none"⟩] := by
  obtain ⟨noEdges, nodes⟩ := filterMap_map_node dfa.states
  obtain ⟨edges, noNodes⟩ := filterMap_mergedEdges dfa.transitions
  refine ⟨_, by rw [graph?, isInitial, Option.map_some], ?_, ?_⟩
  · simp only [Dot.Graph.edges, List.filterMap_append, noEdges, edges]
    rfl
  · simp only [Dot.Graph.nodes, List.filterMap_append, nodes, noNodes, List.append_nil]
    rfl

end Graph

/-- The graph of an automaton that has an initial state shows every transition exactly once, if no
label of a state is empty and no symbol of the alphabet holds a comma. -/
theorem graph?_showsTransitions (isInitial : dfa.initial = some initial)
    (named : ∀ state ∈ dfa.states, state.label ≠ "")
    (uncut : ∀ symbol ∈ dfa.alphabet, ',' ∉ symbol.toList) :
    ∃ graph edges, dfa.graph? = some graph ∧ dfa.ShownBy initial graph edges := by
  obtain ⟨graph, drawn, edges_eq, nodes_eq⟩ := exists_graph? isInitial
  have uncutAll : ∀ transition ∈ dfa.transitions, ',' ∉ transition.symbol.toList := by
    intro transition member
    obtain ⟨_, _, _, known, _⟩ := mem_transitions.mp member
    exact uncut transition.symbol known
  have ends_eq : (sharedEdges dfa.transitions).map Dot.Edge.ends =
      (dfa.transitions.map (·.ends)).eraseDups := by
    rw [sharedEdges, List.map_map]
    exact List.map_id _
  refine ⟨graph, sharedEdges dfa.transitions, drawn, ?_⟩
  exact
    { nodes := by
        refine ⟨_, nodes_eq, ?_⟩
        rw [List.forall₂_map_right_iff]
        refine List.forall₂_same.mpr fun state _ => ⟨rfl, ?_⟩
        cases state.isFinal <;> simp
      edges_eq
      named := by
        intro edge member
        obtain ⟨ends, joined, rfl⟩ := mem_sharedEdges.mp member
        obtain ⟨transition, listed, rfl⟩ := List.mem_map.mp joined
        obtain ⟨state, present, source_eq, _⟩ := mem_transitions.mp listed
        change transition.source ≠ ""
        rw [source_eq]
        exact named state present
      ends_eq
      ends_nodup := ends_eq ▸ Subset.nodup_eraseDups _
      symbols_eq := by
        intro edge member
        obtain ⟨ends, joined, rfl⟩ := mem_sharedEdges.mp member
        exact symbols_sharedEdge joined uncutAll
      transitions_perm := transitions_sharedEdges_perm uncutAll }

/-- Two states with one label, a loop, targets that take turns, a symbol that the alphabet repeats
and one that it lacks. -/
private def interleaved : DFA where
  alphabet := ["0", "", "1", "0"]
  policy := .sparse
  states :=
    [⟨"A", ["a"], false, true, Table.ofList [("0", "B"), ("", "A"), ("1", "B"), ("2", "A")]⟩,
     ⟨"A", ["b"], true, false, Table.ofList [("1", "A"), ("0", "A")]⟩]
  initial := some "A"
  finals := ["A"]

theorem graph?_showsTransitions_interleaved :
    (∀ state ∈ interleaved.states, state.label ≠ "") ∧
      (∀ symbol ∈ interleaved.alphabet, ',' ∉ symbol.toList) ∧
      ∃ graph edges, interleaved.graph? = some graph ∧ interleaved.ShownBy "A" graph edges ∧
        edges.map Dot.Edge.ends = [("A", "B"), ("A", "A")] ∧
        edges.map Dot.Edge.symbols = [["0", "1", "0"], ["", "0", "1", "0"]] := by
  have named : ∀ state ∈ interleaved.states, state.label ≠ "" := by decide
  have uncut : ∀ symbol ∈ interleaved.alphabet, ',' ∉ symbol.toList := by decide
  obtain ⟨graph, edges, drawn, shown⟩ := graph?_showsTransitions rfl named uncut
  have ends_eq : edges.map Dot.Edge.ends = [("A", "B"), ("A", "A")] :=
    shown.ends_eq.trans (by decide +kernel)
  refine ⟨named, uncut, graph, edges, drawn, shown, ends_eq, ?_⟩
  calc
    edges.map Dot.Edge.symbols =
        edges.map (fun edge => symbolsBetween interleaved.transitions edge.ends) :=
      List.map_congr_left shown.symbols_eq
    _ = (edges.map Dot.Edge.ends).map (symbolsBetween interleaved.transitions) := by
      rw [List.map_map]
      rfl
    _ = [["0", "1", "0"], ["", "0", "1", "0"]] := by
      rw [ends_eq]
      decide +kernel

end DFA

end Determinizer
