import Determinizer.Proofs.Label
import Determinizer.Proofs.SubsetConstruction.Automaton
import Determinizer.Proofs.SubsetConstruction.Rows

/-! # From rows to states

The places of rows increase, so a place names one row, and labels number the rows that are kept. A
place is entered if it is initial or a row of a non-empty subset leads there; a total automaton keeps
the rows of the other non-empty subsets too.
-/

namespace Determinizer.SubsetConstruction

variable {nfa : NFA} {index : Subset.Index} {dead : Option Nat} {policy : Policy} {initial : Nat}
  {symbols : List Symbol} {subsets : List Subset} {rows : List Row} {row : Row} {place : Nat}

/-- The rows of listed subsets whose targets are all listed. -/
def rowsOf (nfa : NFA) (index : Subset.Index) (dead : Option Nat) (symbols : List Symbol)
    (subsets : List Subset) : List Row :=
  (subsets.zipIdx.filter fun entry => decide (HasRow dead entry)).map
    (rowOf nfa index dead symbols)

/-- All rows are made unless some targets are not listed. -/
theorem rows_eq (symbols : List Symbol) (subsets : List Subset) :
    SubsetConstruction.rows nfa index dead symbols subsets =
      unlessUnlisted (firstUnlisted? nfa index symbols subsets)
        (rowsOf nfa index dead symbols subsets) := by
  rw [SubsetConstruction.rows, filterMapM_row?_eq, List.zipIdx_map_fst, rowsOf]

theorem mem_rowsOf : row ∈ rowsOf nfa index dead symbols subsets ↔
    ∃ subset place, subsets[place]? = some subset ∧ HasRow dead (subset, place) ∧
      row = rowOf nfa index dead symbols (subset, place) := by
  simp only [rowsOf, List.mem_map, List.mem_filter, decide_eq_true_eq, Prod.exists,
    List.mk_mem_zipIdx_iff_getElem?]
  constructor
  · rintro ⟨subset, place, ⟨listed, present⟩, rfl⟩
    exact ⟨subset, place, listed, present, rfl⟩
  · rintro ⟨subset, place, listed, present, rfl⟩
    exact ⟨subset, place, ⟨listed, present⟩, rfl⟩

theorem rowsOf_subsets_sublist :
    ((rowsOf nfa index dead symbols subsets).map (·.subset)).Sublist subsets := by
  have all : (subsets.zipIdx.map Prod.fst) = subsets := List.zipIdx_map_fst 0 subsets
  rw [rowsOf, List.map_map]
  conv => rhs; rw [← all]
  exact List.filter_sublist.map Prod.fst

theorem pairwise_rowsOf : (rowsOf nfa index dead symbols subsets).Pairwise (·.place < ·.place) := by
  rw [rowsOf, List.pairwise_map]
  apply List.Pairwise.sublist List.filter_sublist
  have places : (subsets.zipIdx.map Prod.snd).Pairwise (· < ·) := by
    rw [List.zipIdx_map_snd]
    exact List.pairwise_lt_range'
  exact List.pairwise_map.mp places

/-- A place is entered if it is initial or a non-empty subset leads there. -/
theorem mem_entered : place ∈ entered initial rows ↔
    place = initial ∨ ∃ row ∈ rows, row.subset ≠ [] ∧ ∃ target ∈ row.targets, target.2 = place := by
  have inner : ∀ (targets : List (Symbol × Nat)) (found : Std.HashSet Nat),
      place ∈ targets.foldl (fun found target => found.insert target.2) found ↔
        place ∈ found ∨ ∃ target ∈ targets, target.2 = place := by
    intro targets
    induction targets with
    | nil => simp
    | cons target rest ih =>
      intro found
      simp only [List.foldl_cons, ih, Std.HashSet.mem_insert, beq_iff_eq, List.exists_mem_cons_iff]
      rw [@or_comm (target.2 = place), or_assoc]
  have outer : ∀ (rows : List Row) (found : Std.HashSet Nat),
      place ∈ rows.foldl (fun found row => row.targets.foldl
          (fun found target => found.insert target.2) found) found ↔
        place ∈ found ∨ ∃ row ∈ rows, ∃ target ∈ row.targets, target.2 = place := by
    intro rows
    induction rows with
    | nil => simp
    | cons row rest ih =>
      intro found
      simp only [List.foldl_cons, ih, inner, List.exists_mem_cons_iff, or_assoc]
  have single : place ∈ ({initial} : Std.HashSet Nat) ↔ place = initial := by
    rw [Std.HashSet.singleton_eq_insert, Std.HashSet.mem_insert, beq_iff_eq]
    simp only [Std.HashSet.not_mem_empty, or_false]
    exact eq_comm
  rw [entered, outer, single]
  simp [and_assoc]

theorem mem_kept : row ∈ kept policy initial rows ↔
    row ∈ rows ∧ (row.place ∈ entered initial rows ∨ policy = .total ∧ row.subset ≠ []) := by
  simp [kept, List.mem_filter]

theorem pairwise_kept (ordered : rows.Pairwise (·.place < ·.place)) :
    (kept policy initial rows).Pairwise (·.place < ·.place) :=
  ordered.sublist List.filter_sublist

/-- Positions number the places of rows. -/
theorem positions_eq_ofList (rows : List Row) :
    positions rows = Std.HashMap.ofList (rows.map (·.place)).zipIdx := by
  rw [positions, List.zipIdx_map]
  rfl

/-- The places of rows are the ones that have a position. -/
theorem mem_positions : place ∈ positions rows ↔ ∃ row ∈ rows, row.place = place := by
  rw [positions_eq_ofList, Std.HashMap.mem_ofList, List.zipIdx_map_fst, List.contains_iff_mem,
    List.mem_map]

/-- The label of a kept row is that of its position. -/
theorem labelAt_positions (ordered : rows.Pairwise (·.place < ·.place)) {position : Nat}
    (present : rows[position]? = some row) :
    labelAt (positions rows) row.place = Label.ofPosition position := by
  rw [labelAt, positions_eq_ofList]
  congr 1
  refine Std.HashMap.getD_ofList_of_mem (BEq.refl row.place) ?_ ?_
  · have distinct := (List.pairwise_map.mpr ordered).imp Nat.ne_of_lt
    rw [← List.zipIdx_map_fst 0 (rows.map (·.place))] at distinct
    exact (List.pairwise_map.mp distinct).imp fun different => beq_eq_false_iff_ne.mpr different
  · rw [List.mk_mem_zipIdx_iff_getElem?, List.getElem?_map, present, Option.map_some]

end Determinizer.SubsetConstruction
