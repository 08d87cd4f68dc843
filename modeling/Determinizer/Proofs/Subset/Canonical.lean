import Determinizer.Proofs.Subset.Enumeration

/-! # The canonical order tells subsets apart

The positions in a key give back the names, so two subsets of the base states with the same key are
the same list, and the canonical order of some subsets is determined by what they are. Smaller
subsets come first: the empty one leads the enumeration, and the enumeration without it is the rest.
Subsets of one name follow the order of these names by code points.
-/

namespace Determinizer.Subset

variable {base names : List Name} {left right : Subset}

/-- A comparison that goes both ways is between equal keys. -/
theorem Key.eq_of_isLE {left right : Key} (forth : (Key.compare left right).isLE)
    (back : (Key.compare right left).isLE) : left = right := by
  have same : Key.compare left right = .eq := by
    rw [Key.compare_swap left right] at back
    cases compared : Key.compare left right <;> simp_all
  obtain ⟨sizes, rest⟩ := compareLex_eq_eq.mp same
  obtain ⟨texts, places⟩ := compareLex_eq_eq.mp rest
  cases left
  cases right
  simp only [compareOn, Std.compare_eq_iff_eq] at sizes texts places
  simp only [mk.injEq]
  exact ⟨sizes, texts, places⟩

theorem Key.size_le_of_isLE {left right : Key} (inOrder : (Key.compare left right).isLE) :
    left.size ≤ right.size := by
  rcases Ordering.isLE_then_iff_or.mp inOrder with less | ⟨same, _⟩
  · exact Nat.le_of_lt (Nat.compare_eq_lt.mp less)
  · exact Nat.le_of_eq (Nat.compare_eq_eq.mp same)

theorem isLE_compare_iff {left right : String} : (compare left right).isLE ↔ left ≤ right := by
  change (compareOfLessAndEq left right).isLE ↔ _
  unfold compareOfLessAndEq
  split
  · rename_i less
    exact iff_of_true rfl (String.not_lt.mp (String.lt_asymm less))
  · rename_i notLess
    split
    · rename_i same
      exact iff_of_true rfl (same ▸ String.le_refl left)
    · rename_i different
      refine iff_of_false (by simp) fun atMost => different ?_
      exact String.le_antisymm atMost (String.not_lt.mp notLess)

/-- Among keys of one size the names run together decide first. -/
theorem Key.text_le_of_isLE {left right : Key} (inOrder : (Key.compare left right).isLE)
    (sameSize : left.size = right.size) : left.text ≤ right.text := by
  rcases Ordering.isLE_then_iff_or.mp inOrder with less | ⟨_, rest⟩
  · exact absurd sameSize (Nat.ne_of_lt (Nat.compare_eq_lt.mp less))
  · rw [← isLE_compare_iff]
    rcases Ordering.isLE_then_iff_or.mp rest with less | ⟨same, _⟩
    · exact congrArg Ordering.isLE less
    · exact congrArg Ordering.isLE same

theorem getElem?_of_position? {name : Name} {position : Nat}
    (found : position? base name = some position) : base[position]? = some name := by
  induction base generalizing position with
  | nil => contradiction
  | cons first rest ih =>
    rw [position?] at found
    split at found
    · rename_i later inRest
      obtain rfl := Option.some.inj found
      exact ih inRest
    · split at found
      · rename_i same
        obtain rfl := Option.some.inj found
        exact congrArg some same
      · contradiction

/-- The positions of base states lead back to the states. -/
theorem map_getElem?_positions (known : ∀ name ∈ names, name ∈ base) :
    (key base names).positions.map (base[·]?) = names.map some := by
  rw [key, List.map_map]
  apply List.map_congr_left
  intro name member
  cases found : position? base name with
  | none => exact absurd (known name member) (position?_eq_none_iff.mp found)
  | some position => simpa [found] using getElem?_of_position? found

theorem eq_of_key_eq (leftKnown : ∀ name ∈ left, name ∈ base)
    (rightKnown : ∀ name ∈ right, name ∈ base) (same : key base left = key base right) :
    left = right := by
  have lists : left.map some = right.map some := by
    rw [← map_getElem?_positions leftKnown, same, map_getElem?_positions rightKnown]
  exact List.map_injective_iff.mpr (fun _ _ => Option.some.inj) lists

/-- Lists of subsets in canonical order are equal if they list the same subsets of base states. -/
theorem eq_of_perm_of_pairwise {firsts seconds : List Subset} (perm : firsts.Perm seconds)
    (known : ∀ subset ∈ firsts, ∀ name ∈ subset, name ∈ base)
    (firstOrdered : firsts.Pairwise fun left right =>
      (Key.compare (key base left) (key base right)).isLE)
    (secondOrdered : seconds.Pairwise fun left right =>
      (Key.compare (key base left) (key base right)).isLE) : firsts = seconds := by
  refine perm.eq_of_pairwise ?_ firstOrdered secondOrdered
  intro left right leftMember rightMember forth back
  exact eq_of_key_eq (known left leftMember) (known right (perm.mem_iff.mpr rightMember))
    (Key.eq_of_isLE forth back)

theorem pairwise_enumerate (base : List Name) (includeEmpty : Bool) :
    (enumerate base includeEmpty).Pairwise fun left right =>
      (Key.compare (key base.eraseDups left) (key base.eraseDups right)).isLE :=
  pairwise_ordered _ _

/-- Smaller subsets come first. -/
theorem pairwise_length_enumerate (base : List Name) (includeEmpty : Bool) :
    (enumerate base includeEmpty).Pairwise fun left right => left.length ≤ right.length :=
  (pairwise_enumerate base includeEmpty).imp Key.size_le_of_isLE

/-- The empty subset is smaller than any other. -/
theorem isLE_compare_nil (subset : Subset) : (Key.compare (key base []) (key base subset)).isLE := by
  refine Ordering.isLE_then_iff_or.mpr ?_
  cases subset with
  | nil => exact .inr ⟨rfl, rfl⟩
  | cons name rest => exact .inl (Nat.compare_eq_lt.mpr (Nat.succ_pos _))

theorem nil_not_mem_enumerate_false (base : List Name) : [] ∉ enumerate base false := by
  simp [mem_enumerate]

/-- The enumeration with the empty subset begins with it and goes on as the one without it. -/
theorem enumerate_true (base : List Name) : enumerate base true = [] :: enumerate base false := by
  refine @eq_of_perm_of_pairwise base.eraseDups _ _ ?_ ?_ (pairwise_enumerate base true) ?_
  · rw [List.perm_ext_iff_of_nodup (nodup_enumerate base true)
      (List.nodup_cons.mpr ⟨nil_not_mem_enumerate_false base, nodup_enumerate base false⟩)]
    intro subset
    rw [List.mem_cons, mem_enumerate, mem_enumerate]
    by_cases empty : subset = []
    · simp [empty]
    · simp [empty]
  · intro subset member name inside
    exact (mem_enumerate.mp member).1.subset inside
  · exact List.pairwise_cons.mpr
      ⟨fun subset _ => isLE_compare_nil subset, pairwise_enumerate base false⟩

end Determinizer.Subset
