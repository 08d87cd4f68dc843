import Determinizer.NameSet

/-! # The canonical order of subsets

A subset is a list of names. Subsets are ordered by size, then by their names run together, then by
the positions of their names among the base states. The names run together do not tell `["A", "BC"]`
from `["AB", "C"]`; the positions do.
-/

namespace Determinizer

/-- Some states, in an order of their own. -/
abbrev Subset := List Name

namespace Subset

/-- What subsets are ordered by. -/
structure Key where
  size : Nat
  text : String
  positions : List Nat
  deriving DecidableEq

/-- Compares by size first, by positions last. -/
def Key.compare : Key → Key → Ordering :=
  compareLex (compareOn Key.size) (compareLex (compareOn Key.text) (compareOn Key.positions))

instance : Std.TransCmp Key.compare :=
  inferInstanceAs (Std.TransCmp (compareLex _ (compareLex _ _)))

theorem Key.compare_swap (left right : Key) :
    Key.compare right left = (Key.compare left right).swap :=
  Std.OrientedCmp.eq_swap

/-- The position of a name among the base states, counted from zero: the last one if the name is
repeated. -/
def position? : List Name → Name → Option Nat
  | [], _ => none
  | first :: rest, name =>
    match position? rest name with
    | some later => some (later + 1)
    | none => if first = name then some 0 else none

/-- The key of a subset whose names are all among the base states. -/
def key (base : List Name) (subset : Subset) : Key where
  size := subset.length
  text := String.join subset
  positions := subset.map fun name => (position? base name).getD 0

/-- The subsets in the canonical order. -/
def ordered (base : List Name) (subsets : List Subset) : List Subset :=
  let keyed := subsets.map fun subset => (key base subset, subset)
  (keyed.mergeSort fun left right => (Key.compare left.1 right.1).isLE).map Prod.snd

/-- The first name, subset by subset, that is not among the base states. -/
def unknownName? (base : List Name) (subsets : List Subset) : Option Name :=
  subsets.findSome? fun subset => subset.find? fun name => !base.contains name

/-- The subsets in the canonical order. The error is a name that is not among the base states. -/
def sort (base : List Name) (subsets : List Subset) : Except Name (List Subset) :=
  match unknownName? base subsets with
  | some name => .error name
  | none => .ok (ordered base subsets)

/-- All choices of members of a list, each in the order of the list. No limit is set to the length of
the list, as there is one for the folders of a path: the choices of so many names could not be held. -/
def choices : List Name → List Subset
  | [] => [[]]
  | name :: rest =>
    let without := choices rest
    without.map (name :: ·) ++ without

/-- All subsets of the base states, in the canonical order. -/
def enumerate (base : List Name) (includeEmpty : Bool) : List Subset :=
  let distinct := base.eraseDups
  ordered distinct ((choices distinct).filter fun subset => includeEmpty || !subset.isEmpty)

theorem position?_eq_none_iff {base : List Name} {name : Name} :
    position? base name = none ↔ name ∉ base := by
  induction base with
  | nil => simp [position?]
  | cons first rest ih =>
    rw [position?]
    split
    · rename_i later found
      have inside : name ∈ rest := by
        by_cases absent : name ∈ rest
        · exact absent
        · rw [ih.mpr absent] at found
          cases found
      simp [inside]
    · rename_i missing
      have absent : name ∉ rest := ih.mp missing
      by_cases same : first = name
      · simp [same]
      · simp [same, absent, Ne.symm same]

/-- Sorting loses and invents nothing. -/
theorem ordered_perm (base : List Name) (subsets : List Subset) :
    (ordered base subsets).Perm subsets := by
  have sorted := (List.mergeSort_perm (subsets.map fun subset => (key base subset, subset))
    fun left right => (Key.compare left.1 right.1).isLE).map Prod.snd
  simpa [ordered, Function.comp_def] using sorted

/-- The order of subsets with their keys beside them. -/
private def keyedLE (left right : Key × Subset) : Bool := (Key.compare left.1 right.1).isLE

/-- No later subset is smaller than an earlier one. -/
theorem pairwise_ordered (base : List Name) (subsets : List Subset) :
    (ordered base subsets).Pairwise fun left right =>
      (Key.compare (key base left) (key base right)).isLE := by
  have keyed : ∀ entry ∈ (subsets.map fun subset => (key base subset, subset)).mergeSort keyedLE,
      entry.1 = key base entry.2 := by
    intro entry member
    obtain ⟨subset, _, rfl⟩ := List.mem_map.mp (List.mem_mergeSort.mp member)
    rfl
  have trans : ∀ left middle right : Key × Subset,
      keyedLE left middle → keyedLE middle right → keyedLE left right :=
    fun _ _ _ first second => Std.TransCmp.isLE_trans first second
  have total : ∀ left right : Key × Subset, (keyedLE left right || keyedLE right left) = true := by
    intro left right
    rw [keyedLE, keyedLE, Key.compare_swap right.1 left.1]
    cases Key.compare right.1 left.1 <;> rfl
  have sorted := List.pairwise_mergeSort trans total
    (subsets.map fun subset => (key base subset, subset))
  change (List.map Prod.snd (List.mergeSort _ keyedLE)).Pairwise _
  rw [List.pairwise_map]
  refine List.Pairwise.imp_of_mem ?_ sorted
  intro left right leftMember rightMember inOrder
  rw [← keyed left leftMember, ← keyed right rightMember]
  exact inOrder

theorem mem_choices {base : List Name} {subset : Subset} :
    subset ∈ choices base ↔ subset.Sublist base := by
  induction base generalizing subset with
  | nil => simp [choices]
  | cons name rest ih =>
    simp only [choices, List.mem_append, List.mem_map, ih, List.sublist_cons_iff]
    constructor
    · rintro (⟨kept, inside, rfl⟩ | inside)
      · exact .inr ⟨kept, rfl, inside⟩
      · exact .inl inside
    · rintro (inside | ⟨kept, rfl, inside⟩)
      · exact .inr inside
      · exact .inl ⟨kept, inside, rfl⟩

end Subset

end Determinizer
