/-! # Finite sets of state names

A set is held as its members in increasing order, by code points. Two sets with the same members
are therefore equal as values, which is what lets a set be the key of an index.
-/

namespace Determinizer

/-- The name of a state as the description of the automaton gives it. -/
abbrev Name := String

/-- The members of a set, in increasing order. -/
structure NameSet where
  toList : List Name
  sorted : toList.Pairwise (· < ·)
  deriving DecidableEq

namespace NameSet

instance : Hashable NameSet := ⟨fun names => hash names.toList⟩

instance : Membership Name NameSet := ⟨fun names name => name ∈ names.toList⟩

instance (name : Name) (names : NameSet) : Decidable (name ∈ names) :=
  inferInstanceAs (Decidable (name ∈ names.toList))

def empty : NameSet := ⟨[], .nil⟩

instance : EmptyCollection NameSet := ⟨empty⟩

instance : Inhabited NameSet := ⟨empty⟩

def isEmpty (names : NameSet) : Bool := names.toList.isEmpty

theorem mem_toList {name : Name} {names : NameSet} : name ∈ names.toList ↔ name ∈ names := Iff.rfl

@[simp] theorem not_mem_empty (name : Name) : name ∉ (∅ : NameSet) := List.not_mem_nil

/-- The increasing list with the members of two increasing lists. -/
def mergeSorted : List Name → List Name → List Name
  | [], right => right
  | left, [] => left
  | x :: left, y :: right =>
    if x < y then x :: mergeSorted left (y :: right)
    else if y < x then y :: mergeSorted (x :: left) right
    else x :: mergeSorted left right
  termination_by left right => left.length + right.length

private theorem eq_of_not_lt {x y : Name} (notLess : ¬ x < y) (notGreater : ¬ y < x) : x = y :=
  String.le_antisymm (String.not_lt.mp notGreater) (String.not_lt.mp notLess)

theorem mem_mergeSorted (name : Name) (left right : List Name) :
    name ∈ mergeSorted left right ↔ name ∈ left ∨ name ∈ right := by
  fun_induction mergeSorted left right with
  | case1 => simp
  | case2 => simp
  | case3 x left y right less ih => simp [ih, or_assoc]
  | case4 x left y right notLess greater ih => simp [ih]; grind
  | case5 x left y right notLess notGreater ih =>
    obtain rfl := eq_of_not_lt notLess notGreater
    simp [ih]; grind

theorem sorted_mergeSorted {left right : List Name} (leftSorted : left.Pairwise (· < ·))
    (rightSorted : right.Pairwise (· < ·)) : (mergeSorted left right).Pairwise (· < ·) := by
  fun_induction mergeSorted left right with
  | case1 => exact rightSorted
  | case2 => exact leftSorted
  | case3 x left y right less ih =>
    rw [List.pairwise_cons] at leftSorted
    refine List.pairwise_cons.mpr ⟨fun z member => ?_, ih leftSorted.2 rightSorted⟩
    rcases (mem_mergeSorted z _ _).mp member with inLeft | inRight
    · exact leftSorted.1 z inLeft
    · rcases List.mem_cons.mp inRight with rfl | later
      · exact less
      · exact String.lt_trans less ((List.pairwise_cons.mp rightSorted).1 z later)
  | case4 x left y right notLess greater ih =>
    rw [List.pairwise_cons] at rightSorted
    refine List.pairwise_cons.mpr ⟨fun z member => ?_, ih leftSorted rightSorted.2⟩
    rcases (mem_mergeSorted z _ _).mp member with inLeft | inRight
    · rcases List.mem_cons.mp inLeft with rfl | later
      · exact greater
      · exact String.lt_trans greater ((List.pairwise_cons.mp leftSorted).1 z later)
    · exact rightSorted.1 z inRight
  | case5 x left y right notLess notGreater ih =>
    obtain rfl := eq_of_not_lt notLess notGreater
    rw [List.pairwise_cons] at leftSorted rightSorted
    refine List.pairwise_cons.mpr ⟨fun z member => ?_, ih leftSorted.2 rightSorted.2⟩
    rcases (mem_mergeSorted z _ _).mp member with inLeft | inRight
    · exact leftSorted.1 z inLeft
    · exact rightSorted.1 z inRight

def union (left right : NameSet) : NameSet :=
  ⟨mergeSorted left.toList right.toList, sorted_mergeSorted left.sorted right.sorted⟩

instance : Union NameSet := ⟨union⟩

def singleton (name : Name) : NameSet := ⟨[name], List.pairwise_singleton _ _⟩

instance : Singleton Name NameSet := ⟨singleton⟩

def insert (name : Name) (names : NameSet) : NameSet := singleton name ∪ names

instance : Insert Name NameSet := ⟨insert⟩

/-- The set of the names in a list, whatever their order and repetition. -/
def ofList (names : List Name) : NameSet := names.foldr insert ∅

@[simp] theorem mem_union {name : Name} {left right : NameSet} :
    name ∈ left ∪ right ↔ name ∈ left ∨ name ∈ right :=
  mem_mergeSorted name left.toList right.toList

@[simp] theorem mem_singleton {name other : Name} : name ∈ ({other} : NameSet) ↔ name = other :=
  List.mem_singleton

@[simp] theorem mem_insert {name other : Name} {names : NameSet} :
    name ∈ Insert.insert other names ↔ name = other ∨ name ∈ names := by
  change name ∈ ({other} : NameSet) ∪ names ↔ _
  rw [mem_union, mem_singleton]

@[simp] theorem mem_ofList {name : Name} {names : List Name} : name ∈ ofList names ↔ name ∈ names := by
  induction names with
  | nil => simp [ofList]
  | cons first rest ih =>
    change name ∈ Insert.insert first (ofList rest) ↔ _
    rw [mem_insert, ih, List.mem_cons]

theorem nodup_toList (names : NameSet) : names.toList.Nodup := by
  refine List.Pairwise.imp ?_ names.sorted
  rintro x y less rfl
  exact String.lt_irrefl x less

/-- Sets with the same members are equal. -/
theorem ext {left right : NameSet} (same : ∀ name, name ∈ left ↔ name ∈ right) : left = right := by
  have perm : left.toList.Perm right.toList :=
    (List.perm_ext_iff_of_nodup left.nodup_toList right.nodup_toList).mpr same
  cases left
  cases right
  rw [mk.injEq]
  exact perm.eq_of_pairwise (fun _ _ _ _ less greater => absurd greater (String.lt_asymm less))
    (by assumption) (by assumption)

theorem eq_empty_iff {names : NameSet} : names = ∅ ↔ ∀ name, name ∉ names := by
  constructor
  · rintro rfl
    exact not_mem_empty
  · intro none
    exact ext fun name => iff_of_false (none name) (not_mem_empty name)

theorem ne_empty_iff {names : NameSet} : names ≠ ∅ ↔ ∃ name, name ∈ names := by
  simp [eq_empty_iff]

theorem singleton_ne_empty (name : Name) : ({name} : NameSet) ≠ ∅ :=
  ne_empty_iff.mpr ⟨name, mem_singleton.mpr rfl⟩

theorem ofList_eq_empty_iff {names : List Name} : ofList names = ∅ ↔ names = [] := by
  rw [eq_empty_iff, List.eq_nil_iff_forall_not_mem]
  simp only [mem_ofList]

@[simp] theorem ofList_singleton (name : Name) : ofList [name] = {name} :=
  ext fun other => by simp

@[simp] theorem ofList_toList (names : NameSet) : ofList names.toList = names :=
  ext fun _ => mem_ofList

theorem ofList_eq_ofList_iff {left right : List Name} :
    ofList left = ofList right ↔ ∀ name, name ∈ left ↔ name ∈ right := by
  constructor
  · intro same name
    rw [← mem_ofList, same, mem_ofList]
  · intro same
    exact ext fun name => by rw [mem_ofList, mem_ofList, same]

theorem isEmpty_iff {names : NameSet} : names.isEmpty = true ↔ names = ∅ := by
  constructor
  · intro none
    refine ext fun name => ?_
    rw [← mem_toList, List.isEmpty_iff.mp none]
    exact Iff.rfl
  · rintro rfl
    rfl

end NameSet

end Determinizer
