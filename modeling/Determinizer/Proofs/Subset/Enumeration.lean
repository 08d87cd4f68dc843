import Determinizer.Subset.Index
import Mathlib.Data.List.Nodup
import Mathlib.Data.List.Perm.Basic

/-! # The enumeration of all subsets

The subsets of the base states are the sublists of the distinct base states, each listed once. A
sublist of distinct names is known by its members, so a set of base states is listed as exactly one
subset: its names in base order.
-/

namespace Determinizer.Subset

theorem nodup_eraseDups {α : Type} [BEq α] [LawfulBEq α] (items : List α) :
    items.eraseDups.Nodup := by
  induction bound : items.length using Nat.strongRecOn generalizing items with
  | ind size ih =>
    cases items with
    | nil => simp
    | cons first rest =>
      rw [List.eraseDups_cons, List.nodup_cons]
      refine ⟨by simp, ih _ ?_ _ rfl⟩
      have shorter := List.length_filter_le (fun item => !item == first) rest
      rw [List.length_cons] at bound
      omega

/-- A list without repetitions is its own list of distinct members. -/
theorem eraseDups_eq_self {names : List Name} (distinct : names.Nodup) :
    names.eraseDups = names := by
  induction names with
  | nil => rfl
  | cons first rest ih =>
    obtain ⟨fresh, later⟩ := List.nodup_cons.mp distinct
    rw [List.eraseDups_cons, List.filter_eq_self.mpr, ih later]
    intro name member
    have different : name ≠ first := fun same => fresh (same ▸ member)
    simpa using different

/-- The subset of some base states, in base order. -/
def inBaseOrder (base : List Name) (names : NameSet) : Subset :=
  base.eraseDups.filter fun name => decide (name ∈ names)

theorem filter_mem_of_sublist {α : Type} [DecidableEq α] {base kept : List α}
    (sublist : kept.Sublist base) (distinct : base.Nodup) :
    base.filter (fun item => decide (item ∈ kept)) = kept := by
  induction sublist with
  | slnil => rfl
  | @cons kept rest item sublist ih =>
    obtain ⟨fresh, later⟩ := List.nodup_cons.mp distinct
    have absent : item ∉ kept := fun member => fresh (sublist.subset member)
    rw [List.filter_cons_of_neg (by simpa using absent), ih later]
  | @cons_cons kept rest item sublist ih =>
    obtain ⟨fresh, later⟩ := List.nodup_cons.mp distinct
    rw [List.filter_cons_of_pos (by simp)]
    congr 1
    refine Eq.trans (List.filter_congr fun other member => ?_) (ih later)
    have different : other ≠ item := fun same => fresh (same ▸ member)
    simp [different]

/-- Sublists of a list without repetitions are equal if they have the same members. -/
theorem eq_of_sublist_of_mem_iff {α : Type} [DecidableEq α] {base left right : List α}
    (distinct : base.Nodup) (leftSublist : left.Sublist base) (rightSublist : right.Sublist base)
    (same : ∀ item, item ∈ left ↔ item ∈ right) : left = right := by
  rw [← filter_mem_of_sublist leftSublist distinct, ← filter_mem_of_sublist rightSublist distinct]
  simp only [same]

/-- A sublist of the distinct base states is the base order of its members. -/
theorem eq_inBaseOrder {base : List Name} {subset : Subset}
    (sublist : subset.Sublist base.eraseDups) :
    subset = inBaseOrder base (NameSet.ofList subset) := by
  have kept := filter_mem_of_sublist sublist (nodup_eraseDups base)
  simpa only [inBaseOrder, NameSet.mem_ofList] using kept.symm

/-- Sublists of the distinct base states are equal if they have the same members. -/
theorem eq_of_members_eq {base : List Name} {left right : Subset}
    (leftSublist : left.Sublist base.eraseDups) (rightSublist : right.Sublist base.eraseDups)
    (same : NameSet.ofList left = NameSet.ofList right) : left = right := by
  rw [eq_inBaseOrder leftSublist, eq_inBaseOrder rightSublist, same]

theorem inBaseOrder_sublist (base : List Name) (names : NameSet) :
    (inBaseOrder base names).Sublist base.eraseDups :=
  List.filter_sublist

theorem ofList_inBaseOrder {base : List Name} {names : NameSet}
    (declared : ∀ name ∈ names, name ∈ base) :
    NameSet.ofList (inBaseOrder base names) = names := by
  apply NameSet.ext
  intro name
  simp only [inBaseOrder, NameSet.mem_ofList, List.mem_filter, List.mem_eraseDups,
    decide_eq_true_eq]
  exact ⟨And.right, fun member => ⟨declared name member, member⟩⟩

/-- A set of one base state is listed as that state alone. -/
theorem eq_singleton_of_sublist {base : List Name} {subset : Subset} {name : Name}
    (sublist : subset.Sublist base.eraseDups) (members : NameSet.ofList subset = {name}) :
    subset = [name] := by
  have present : name ∈ subset := by
    rw [← NameSet.mem_ofList, members]
    exact NameSet.mem_singleton.mpr rfl
  have alone : [name].Sublist base.eraseDups :=
    List.singleton_sublist.mpr (sublist.subset present)
  rw [eq_inBaseOrder sublist, eq_inBaseOrder alone, members, NameSet.ofList_singleton]

theorem nodup_choices {base : List Name} (distinct : base.Nodup) : (choices base).Nodup := by
  induction base with
  | nil => simp [choices]
  | cons name rest ih =>
    obtain ⟨fresh, later⟩ := List.nodup_cons.mp distinct
    refine List.nodup_append'.mpr ⟨?_, ih later, ?_⟩
    · exact (ih later).map fun left right same => (List.cons.inj same).2
    · intro subset included excluded
      obtain ⟨kept, _, rfl⟩ := List.mem_map.mp included
      exact fresh ((mem_choices.mp excluded).subset List.mem_cons_self)

/-- The enumeration lists the sublists of the distinct base states, the empty one only if asked. -/
theorem mem_enumerate {base : List Name} {includeEmpty : Bool} {subset : Subset} :
    subset ∈ enumerate base includeEmpty ↔
      subset.Sublist base.eraseDups ∧ (includeEmpty = true ∨ subset ≠ []) := by
  rw [enumerate, (ordered_perm _ _).mem_iff, List.mem_filter, mem_choices]
  simp

theorem nodup_enumerate (base : List Name) (includeEmpty : Bool) :
    (enumerate base includeEmpty).Nodup :=
  (ordered_perm _ _).nodup_iff.mpr ((nodup_choices (nodup_eraseDups base)).filter _)

/-- A set of base states is listed as one subset, its names in base order. -/
theorem mem_enumerate_and_members_iff {base : List Name} {includeEmpty : Bool} {subset : Subset}
    {names : NameSet} :
    subset ∈ enumerate base includeEmpty ∧ NameSet.ofList subset = names ↔
      subset = inBaseOrder base names ∧ (∀ name ∈ names, name ∈ base) ∧
        (includeEmpty = true ∨ names ≠ ∅) := by
  rw [mem_enumerate]
  constructor
  · rintro ⟨⟨sublist, filled⟩, rfl⟩
    refine ⟨eq_inBaseOrder sublist, fun name member => ?_, ?_⟩
    · exact List.mem_eraseDups.mp (sublist.subset (NameSet.mem_ofList.mp member))
    · rwa [Ne, NameSet.ofList_eq_empty_iff]
  · rintro ⟨rfl, declared, filled⟩
    refine ⟨⟨inBaseOrder_sublist base names, ?_⟩, ofList_inBaseOrder declared⟩
    rwa [Ne, ← NameSet.ofList_eq_empty_iff, ofList_inBaseOrder declared]

end Determinizer.Subset
