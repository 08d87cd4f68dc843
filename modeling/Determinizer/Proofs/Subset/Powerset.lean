import Determinizer.Proofs.Subset.Canonical
import Mathlib.Algebra.Group.Nat.Defs

/-! # The enumeration is the powerset in canonical order

Each set of base states is listed exactly once, as its names in the order of their first appearance.
The list increases strictly: where the sizes agree the names run together decide, and where these
agree too the positions of the names do, which differ for different subsets. So the place of a subset
in the list is the place that the index gives for its members.
-/

namespace Determinizer.Subset

/-- One key comes before another by its first part that differs. -/
def Key.Before (left right : Key) : Prop :=
  left.size < right.size ∨ left.size = right.size ∧
    (left.text < right.text ∨ left.text = right.text ∧ left.positions < right.positions)

instance : DecidableRel Key.Before := fun left right =>
  inferInstanceAs (Decidable (left.size < right.size ∨ left.size = right.size ∧
    (left.text < right.text ∨ left.text = right.text ∧ left.positions < right.positions)))

/-- The size of a subset, its names run together, and the positions of its names among distinct base
states. -/
def keyAmong (distinct : List Name) (subset : Subset) : Key :=
  ⟨subset.length, String.join subset, subset.map distinct.idxOf⟩

/-- One subset of distinct base states comes before another in the canonical order. -/
def Precedes (distinct : List Name) (left right : Subset) : Prop :=
  (keyAmong distinct left).Before (keyAmong distinct right)

instance (distinct : List Name) : DecidableRel (Precedes distinct) := fun left right =>
  inferInstanceAs (Decidable ((keyAmong distinct left).Before (keyAmong distinct right)))

/-- The list is the powerset of the distinct ones among some base states, in the canonical order. -/
structure IsPowerset (base : List Name) (subsets : List Subset) : Prop where
  length_eq : subsets.length = 2 ^ base.eraseDups.length
  /-- Members differ and stand in the order in which they first appear. -/
  inOrder : ∀ subset ∈ subsets, subset.Nodup ∧ subset.Sublist base.eraseDups
  once : ∀ names : NameSet, (∀ name ∈ names, name ∈ base) →
    subsets.countP (fun subset => decide (NameSet.ofList subset = names)) = 1
  increasing : subsets.Pairwise (Precedes base.eraseDups)
  first : subsets[0]? = some []
  /-- The index leads from the members of a subset to its place. -/
  found : ∀ place subset, subsets[place]? = some subset →
    (index subsets)[NameSet.ofList subset]? = some place

variable {base : List Name} {subsets : List Subset} {left right subset : Subset}
  {includeEmpty : Bool} {names : NameSet} {place : Nat}

section Order

theorem compare_positions_eq_lt_iff {left right : List Nat} :
    compare left right = .lt ↔ left < right := by
  induction left generalizing right with
  | nil => cases right <;> simp
  | cons first rest ih =>
    cases right with
    | nil => simp
    | cons other later =>
      rw [List.compare_cons_cons, List.cons_lt_cons_iff, Ordering.then_eq_lt, ih,
        Nat.compare_eq_lt, Nat.compare_eq_eq]

/-- The comparison by parts finds which key comes first. -/
theorem Key.compare_eq_lt_iff {left right : Key} :
    Key.compare left right = .lt ↔ left.Before right := by
  have texts : Ord.compare left.text right.text = .lt ↔ left.text < right.text :=
    compareOfLessAndEq_eq_lt
  rw [Key.compare, compareLex, compareLex, Ordering.then_eq_lt, Ordering.then_eq_lt]
  simp only [compareOn, Nat.compare_eq_lt, Std.compare_eq_iff_eq, texts, compare_positions_eq_lt_iff]
  exact Iff.rfl

/-- No two keys come before each other. -/
theorem Key.Before.not_before {left right : Key} (before : left.Before right) :
    ¬ right.Before left := by
  rw [← Key.compare_eq_lt_iff] at before ⊢
  rw [Key.compare_swap left right, before]
  exact Ordering.noConfusion

/-- Of two different keys in order the first comes before the second. -/
theorem Key.before_of_isLE {left right : Key} (different : left ≠ right)
    (inOrder : (Key.compare left right).isLE) : left.Before right := by
  rw [← Key.compare_eq_lt_iff]
  cases compared : Key.compare left right with
  | lt => rfl
  | eq =>
    have back : (Key.compare right left).isLE := by
      rw [Key.compare_swap left right, compared]
      rfl
    exact absurd (Key.eq_of_isLE inOrder back) different
  | gt => simp [compared] at inOrder

theorem Precedes.not_precedes {distinct : List Name} (before : Precedes distinct left right) :
    ¬ Precedes distinct right left :=
  Key.Before.not_before before

/-- Without repetitions there is one position for each name. -/
theorem position?_eq_idxOf (distinct : base.Nodup) {name : Name} (known : name ∈ base) :
    position? base name = some (base.idxOf name) := by
  cases found : position? base name with
  | none => exact absurd known (position?_eq_none_iff.mp found)
  | some position =>
    obtain ⟨bound, rfl⟩ := List.getElem?_eq_some_iff.mp (getElem?_of_position? found)
    rw [distinct.idxOf_getElem]

theorem key_eq_keyAmong (distinct : base.Nodup) (known : ∀ name ∈ subset, name ∈ base) :
    key base subset = keyAmong base subset := by
  rw [key, keyAmong, Key.mk.injEq]
  refine ⟨rfl, rfl, List.map_congr_left fun name member => ?_⟩
  rw [position?_eq_idxOf distinct (known name member), Option.getD_some]

/-- Different subsets of the base states have different keys, so one of them comes first. -/
theorem precedes_of_isLE (leftKnown : ∀ name ∈ left, name ∈ base.eraseDups)
    (rightKnown : ∀ name ∈ right, name ∈ base.eraseDups) (different : left ≠ right)
    (inOrder : (Key.compare (key base.eraseDups left) (key base.eraseDups right)).isLE) :
    Precedes base.eraseDups left right := by
  have distinct := nodup_eraseDups base
  rw [Precedes, ← key_eq_keyAmong distinct leftKnown, ← key_eq_keyAmong distinct rightKnown]
  refine Key.before_of_isLE (fun same => different ?_) inOrder
  exact eq_of_key_eq leftKnown rightKnown same

/-- The enumeration increases strictly. -/
theorem pairwise_precedes_enumerate (base : List Name) (includeEmpty : Bool) :
    (enumerate base includeEmpty).Pairwise (Precedes base.eraseDups) := by
  refine List.Pairwise.imp_of_mem ?_
    ((nodup_enumerate base includeEmpty).and (pairwise_enumerate base includeEmpty))
  rintro left right leftMember rightMember ⟨different, inOrder⟩
  have known : ∀ subset ∈ enumerate base includeEmpty, ∀ name ∈ subset, name ∈ base.eraseDups :=
    fun _ member _ inside => (mem_enumerate.mp member).1.subset inside
  exact precedes_of_isLE (known left leftMember) (known right rightMember) different inOrder

end Order

section Index

/-- In a list that shows no set of members twice, the index gives the place of each. -/
theorem index_eq_some_iff (distinct : (subsets.map NameSet.ofList).Nodup) :
    (index subsets)[names]? = some place ↔
      ∃ subset, subsets[place]? = some subset ∧ NameSet.ofList subset = names := by
  constructor
  · exact getElem?_of_index
  · rintro ⟨subset, listed, rfl⟩
    obtain ⟨other, found⟩ :=
      exists_index_iff.mpr ⟨subset, List.mem_of_getElem? listed, rfl⟩
    obtain ⟨same, otherListed, members⟩ := getElem?_of_index found
    have atPlace : (subsets.map NameSet.ofList)[place]? = some (NameSet.ofList subset) := by
      rw [List.getElem?_map, listed, Option.map_some]
    have atOther : (subsets.map NameSet.ofList)[other]? = some (NameSet.ofList subset) := by
      rw [List.getElem?_map, otherListed, Option.map_some, members]
    obtain ⟨bound, here⟩ := List.getElem?_eq_some_iff.mp atPlace
    obtain ⟨otherBound, there⟩ := List.getElem?_eq_some_iff.mp atOther
    rw [found, distinct.getElem_inj_iff.mp (there.trans here.symm)]

/-- No set of members is listed twice. -/
theorem nodup_members_enumerate (base : List Name) (includeEmpty : Bool) :
    ((enumerate base includeEmpty).map NameSet.ofList).Nodup := by
  refine List.Nodup.map_on ?_ (nodup_enumerate base includeEmpty)
  intro left leftMember right rightMember same
  exact eq_of_members_eq (mem_enumerate.mp leftMember).1 (mem_enumerate.mp rightMember).1 same

theorem index_enumerate_eq_some_iff :
    (index (enumerate base includeEmpty))[names]? = some place ↔
      ∃ subset, (enumerate base includeEmpty)[place]? = some subset ∧
        NameSet.ofList subset = names :=
  index_eq_some_iff (nodup_members_enumerate base includeEmpty)

end Index

theorem length_choices (base : List Name) : (choices base).length = 2 ^ base.length := by
  induction base with
  | nil => rfl
  | cons name rest ih =>
    rw [choices, List.length_append, List.length_map, ih, List.length_cons, pow_succ, Nat.mul_two]

theorem length_enumerate_true (base : List Name) :
    (enumerate base true).length = 2 ^ base.eraseDups.length := by
  rw [enumerate, (ordered_perm _ _).length_eq, ← length_choices]
  simp

theorem length_enumerate_false (base : List Name) :
    (enumerate base false).length = 2 ^ base.eraseDups.length - 1 := by
  rw [← length_enumerate_true, enumerate_true, List.length_cons, Nat.add_sub_cancel]

/-- Each set of base states is listed exactly once. -/
theorem countP_enumerate_true (declared : ∀ name ∈ names, name ∈ base) :
    (enumerate base true).countP (fun subset => decide (NameSet.ofList subset = names)) = 1 := by
  have listed : names ∈ (enumerate base true).map NameSet.ofList := by
    obtain ⟨member, members⟩ :=
      mem_enumerate_and_members_iff.mpr ⟨rfl, declared, .inl (Eq.refl true)⟩
    exact List.mem_map.mpr ⟨_, member, members⟩
  have once := List.count_eq_one_of_mem (nodup_members_enumerate base true) listed
  rw [List.count_eq_countP, List.countP_map] at once
  exact once

/-- The enumeration with the empty subset is the powerset in canonical order, and the one without it
is the rest. The index gives places in either. -/
theorem enumerate_isPowerset (base : List Name) :
    IsPowerset base (enumerate base true) ∧ enumerate base false = (enumerate base true).tail ∧
      ∀ place subset, (enumerate base false)[place]? = some subset →
        (index (enumerate base false))[NameSet.ofList subset]? = some place := by
  have found : ∀ includeEmpty place subset, (enumerate base includeEmpty)[place]? = some subset →
      (index (enumerate base includeEmpty))[NameSet.ofList subset]? = some place := by
    intro includeEmpty place subset listed
    exact index_enumerate_eq_some_iff.mpr ⟨subset, listed, rfl⟩
  refine ⟨?_, by rw [enumerate_true, List.tail_cons], found false⟩
  exact
    { length_eq := length_enumerate_true base
      inOrder := fun subset member =>
        have sublist := (mem_enumerate.mp member).1
        ⟨sublist.nodup (nodup_eraseDups base), sublist⟩
      once := fun _ => countP_enumerate_true
      increasing := pairwise_precedes_enumerate base true
      first := by rw [enumerate_true, List.getElem?_cons_zero]
      found := found true }

end Determinizer.Subset
