import Determinizer.Subset.Order
import Std.Data.HashMap

/-! # Finding a subset by its members

An index leads from a set of names to the first listed subset that has exactly these members,
whatever their order and repetition in the list.
-/

namespace Determinizer.Subset

/-- From a set of names to a place in a list of subsets. -/
abbrev Index := Std.HashMap NameSet Nat

/-- Adds subsets that stand in their list from `place` on; a set that is known keeps its place. -/
def indexFrom (place : Nat) (known : Index) : List Subset → Index
  | [] => known
  | subset :: rest => indexFrom (place + 1) (known.insertIfNew (NameSet.ofList subset) place) rest

/-- The place of the first subset with each set of members. -/
def index (subsets : List Subset) : Index := indexFrom 0 ∅ subsets

/-- The sets of members in the order in which the list shows them first, with their places. -/
def indexEntries (subsets : List Subset) : List (NameSet × Nat) :=
  let places := index subsets
  subsets.zipIdx.filterMap fun entry =>
    let names := NameSet.ofList entry.1
    if places[names]? = some entry.2 then some (names, entry.2) else none

theorem getElem?_indexFrom (place : Nat) (known : Index) (subsets : List Subset) (names : NameSet) :
    (indexFrom place known subsets)[names]? =
      (known[names]?).or ((subsets.findIdx? (NameSet.ofList · == names)).map (place + ·)) := by
  induction subsets generalizing place known with
  | nil => simp [indexFrom]
  | cons subset rest ih =>
    rw [indexFrom, ih, Std.HashMap.getElem?_insertIfNew, List.findIdx?_cons]
    by_cases same : NameSet.ofList subset = names
    · subst same
      cases present : known[NameSet.ofList subset]? with
      | none => simp_all
      | some other =>
        have member : NameSet.ofList subset ∈ known :=
          Std.HashMap.mem_iff_isSome_getElem?.mpr (by simp [present])
        simp [member]
    · simp [same, Option.map_map, Function.comp_def, Nat.add_assoc, Nat.add_comm 1]

/-- The index finds the first subset with the members asked for. -/
theorem getElem?_index (subsets : List Subset) (names : NameSet) :
    (index subsets)[names]? = subsets.findIdx? (NameSet.ofList · == names) := by
  simp [index, getElem?_indexFrom]

/-- What the index finds is listed at the place it gives. -/
theorem getElem?_of_index {subsets : List Subset} {names : NameSet} {place : Nat}
    (found : (index subsets)[names]? = some place) :
    ∃ subset, subsets[place]? = some subset ∧ NameSet.ofList subset = names := by
  rw [getElem?_index, List.findIdx?_eq_some_iff_getElem] at found
  obtain ⟨bound, same, _⟩ := found
  exact ⟨subsets[place], List.getElem?_eq_getElem bound, by simpa using same⟩

theorem index_eq_none_iff {subsets : List Subset} {names : NameSet} :
    (index subsets)[names]? = none ↔ ∀ subset ∈ subsets, NameSet.ofList subset ≠ names := by
  rw [getElem?_index, List.findIdx?_eq_none_iff]
  simp

/-- The index finds exactly the sets of members that are listed. -/
theorem exists_index_iff {subsets : List Subset} {names : NameSet} :
    (∃ place, (index subsets)[names]? = some place) ↔
      ∃ subset ∈ subsets, NameSet.ofList subset = names := by
  rw [← Option.ne_none_iff_exists', Ne, index_eq_none_iff]
  simp

end Determinizer.Subset
