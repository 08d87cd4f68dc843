import Determinizer.Proofs.Subset.Powerset

/-! # Sorting gives a canonical form

Subsets of the base states can be sorted, whether they repeat names or not; a name that is not a
base state is an error. Along the sorted list the keys do not decrease. Subsets with the same key
are the same list of names, so the result shows which subsets were sorted and how often, and nothing
of the order in which they were given.
-/

namespace Determinizer.Subset

/-- A name stands at a place among the base states and at no later place. -/
def IsLastAt (base : List Name) (name : Name) (place : Nat) : Prop :=
  base[place]? = some name ∧ ∀ later, place < later → base[later]? ≠ some name

/-- The size of a subset, its names run together, and the last place of each name among the base
states. -/
structure IsKeyOf (base : List Name) (subset : Subset) (key : Key) : Prop where
  size_eq : key.size = subset.length
  text_eq : key.text = String.join subset
  places : List.Forall₂ (IsLastAt base) subset key.positions

/-- The list holds the subsets in the one order that their keys allow. -/
structure IsCanonicalForm (base : List Name) (subsets sorted : List Subset) : Prop where
  perm : sorted.Perm subsets
  keyed : ∀ subset ∈ sorted, IsKeyOf base subset (key base subset)
  inOrder : sorted.Pairwise fun left right => ¬ (key base right).Before (key base left)
  separated : ∀ left right : Subset, (∀ name ∈ left, name ∈ base) → (∀ name ∈ right, name ∈ base) →
    key base left = key base right → left = right
  /-- The same subsets in any order are sorted to this list, and no others are. -/
  same_iff : ∀ others, sort base others = .ok sorted ↔ others.Perm subsets
  stable : sort base sorted = .ok sorted

variable {base : List Name} {name : Name} {place : Nat} {subset : Subset}
  {subsets sorted others : List Subset}

section Keys

/-- The position of a repeated name is the last of its places. -/
theorem isLastAt_of_position? (found : position? base name = some place) :
    IsLastAt base name place := by
  refine ⟨getElem?_of_position? found, ?_⟩
  induction base generalizing place with
  | nil => contradiction
  | cons first rest ih =>
    rw [position?] at found
    intro later after
    obtain ⟨later, rfl⟩ := Nat.exists_eq_succ_of_ne_zero (Nat.ne_zero_of_lt after)
    rw [List.getElem?_cons_succ]
    split at found
    · rename_i laterPlace foundLater
      obtain rfl := Option.some.inj found
      exact ih foundLater later (Nat.lt_of_succ_lt_succ after)
    · rename_i missing
      exact fun listed => position?_eq_none_iff.mp missing (List.mem_of_getElem? listed)

theorem isKeyOf_key (known : ∀ name ∈ subset, name ∈ base) :
    IsKeyOf base subset (key base subset) := by
  refine ⟨rfl, rfl, ?_⟩
  rw [key, List.forall₂_map_right_iff, List.forall₂_same]
  intro name member
  cases found : position? base name with
  | none => exact absurd (known name member) (position?_eq_none_iff.mp found)
  | some place => exact isLastAt_of_position? found

/-- Between subsets of one size with the same text the places decide, here the last place of `x`. -/
example :
    Key.compare (key ["x", "xx", "x"] ["xx", "x"]) (key ["x", "xx", "x"] ["x", "xx"]) = .lt := by
  decide +kernel

/-- What comes first in the comparison of keys has no later key. -/
theorem Key.not_before_of_isLE {left right : Key} (inOrder : (Key.compare left right).isLE) :
    ¬ right.Before left := by
  rw [← Key.compare_eq_lt_iff, Key.compare_swap left right]
  cases compared : Key.compare left right <;> simp_all

end Keys

section Result

theorem unknownName?_eq_find? (base : List Name) (subsets : List Subset) :
    unknownName? base subsets = subsets.flatten.find? fun name => !base.contains name :=
  List.find?_flatten.symm

theorem unknownName?_eq_none_iff :
    unknownName? base subsets = none ↔ ∀ subset ∈ subsets, ∀ name ∈ subset, name ∈ base := by
  simp [unknownName?]

theorem sort_eq_error_iff :
    sort base subsets = .error name ↔ unknownName? base subsets = some name := by
  rw [sort]
  cases unknownName? base subsets <;> simp

theorem sort_eq_ok_iff : sort base subsets = .ok sorted ↔
    (∀ subset ∈ subsets, ∀ name ∈ subset, name ∈ base) ∧ ordered base subsets = sorted := by
  rw [sort, ← unknownName?_eq_none_iff]
  cases unknownName? base subsets <;> simp

/-- The order in which subsets of the base states are given does not matter. -/
theorem ordered_eq_of_perm (perm : others.Perm subsets)
    (known : ∀ subset ∈ subsets, ∀ name ∈ subset, name ∈ base) :
    ordered base others = ordered base subsets := by
  have sortedPerm : (ordered base others).Perm (ordered base subsets) :=
    (ordered_perm base others).trans (perm.trans (ordered_perm base subsets).symm)
  refine eq_of_perm_of_pairwise sortedPerm ?_ (pairwise_ordered base others)
    (pairwise_ordered base subsets)
  intro subset member
  exact known subset (((ordered_perm base others).trans perm).mem_iff.mp member)

/-- Lists are sorted to the same result exactly if they hold the same subsets equally often. -/
theorem sort_eq_ok_iff_perm (sorts : sort base subsets = .ok sorted) :
    sort base others = .ok sorted ↔ others.Perm subsets := by
  obtain ⟨known, rfl⟩ := sort_eq_ok_iff.mp sorts
  rw [sort_eq_ok_iff]
  constructor
  · rintro ⟨_, same⟩
    exact (ordered_perm base others).symm.trans (same ▸ ordered_perm base subsets)
  · intro perm
    exact ⟨fun subset member => known subset (perm.mem_iff.mp member),
      ordered_eq_of_perm perm known⟩

end Result

theorem isCanonicalForm_of_sort (sorts : sort base subsets = .ok sorted) :
    IsCanonicalForm base subsets sorted := by
  obtain ⟨known, rfl⟩ := sort_eq_ok_iff.mp sorts
  have perm : (ordered base subsets).Perm subsets := ordered_perm base subsets
  exact
    { perm := perm
      keyed := fun subset member => isKeyOf_key (known subset (perm.mem_iff.mp member))
      inOrder := (pairwise_ordered base subsets).imp Key.not_before_of_isLE
      separated := fun _ _ => eq_of_key_eq
      same_iff := fun _ => sort_eq_ok_iff_perm sorts
      stable := (sort_eq_ok_iff_perm sorts).mpr perm }

/-- Sorting fails exactly if some subset has a name that is not a base state, at the first such
name, and otherwise gives the canonical form of what is sorted. -/
theorem sort_isCanonical (base : List Name) (subsets : List Subset) :
    ((∃ name, sort base subsets = .error name) ↔
        ∃ subset ∈ subsets, ∃ name ∈ subset, name ∉ base) ∧
      (∀ name, sort base subsets = .error name ↔
        subsets.flatten.find? (fun name => !base.contains name) = some name) ∧
      ∀ sorted, sort base subsets = .ok sorted → IsCanonicalForm base subsets sorted := by
  refine ⟨?_, fun name => ?_, fun sorted => isCanonicalForm_of_sort⟩
  · simp only [sort_eq_error_iff, ← Option.ne_none_iff_exists', Ne, unknownName?_eq_none_iff]
    push Not
    rfl
  · rw [sort_eq_error_iff, unknownName?_eq_find?]

end Determinizer.Subset
