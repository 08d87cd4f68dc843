import Determinizer.Proofs.SubsetConstruction.Construction

/-! # The rows that are kept are closed

Where a row that is kept leads on a symbol, there is a row that is kept, and its subset has the
targets as its members: the targets of a non-empty subset are entered, and the dead state leads to
itself. Only a sparse automaton has rows that lead nowhere, and only where there are no targets.
-/

namespace Determinizer.SubsetConstruction

variable {nfa : NFA} {alphabet : List Symbol} {policy : Policy} {subsets : List Subset}
  {initial place : Nat} {row : Row} {symbol : Symbol} {subset : Subset} {dfa : DFA}

/-- The place of the targets of a listed subset. -/
def placeOf? (nfa : NFA) (policy : Policy) (subsets : List Subset) (subset : Subset)
    (symbol : Symbol) : Option Nat :=
  targetPlace? nfa (Subset.index subsets) (deadPlace? policy subsets) subset symbol

/-- Only a sparse automaton has no target, and only where there are no targets. -/
theorem placeOf?_eq_none_iff (found : Found nfa alphabet policy subsets initial)
    (member : subset ∈ subsets) (known : symbol ∈ alphabet) :
    placeOf? nfa policy subsets subset symbol = none ↔
      policy = .sparse ∧ nfa.targetsOf subset symbol = ∅ := by
  rw [placeOf?, targetPlace?]
  by_cases empty : nfa.targetsOf subset symbol = ∅
  · rw [if_pos empty, and_iff_left empty]
    cases policy with
    | sparse => simp
    | total =>
      obtain ⟨place, present⟩ := found.hasDead rfl
      simp [present]
  · obtain ⟨place, present⟩ := (found.listed subset member symbol known).resolve_left empty
    simp [empty, present]

/-- Where a subset leads on a symbol, all its targets are listed as a subset that has a row. -/
theorem exists_of_placeOf? (leads : placeOf? nfa policy subsets subset symbol = some place) :
    ∃ other, subsets[place]? = some other ∧ HasRow (deadPlace? policy subsets) (other, place) ∧
      NameSet.ofList other = nfa.targetsOf subset symbol := by
  rw [placeOf?, targetPlace?] at leads
  split at leads
  · rename_i empty
    cases policy with
    | sparse => contradiction
    | total =>
      obtain ⟨other, listed, members⟩ := Subset.getElem?_of_index leads
      exact ⟨other, listed, .inr leads, members.trans empty.symm⟩
  · rename_i filled
    obtain ⟨other, listed, members⟩ := Subset.getElem?_of_index leads
    refine ⟨other, listed, .inl ?_, members⟩
    rwa [← members, NameSet.ofList_eq_empty_iff] at filled

theorem mem_keptRows : row ∈ keptRows nfa alphabet policy subsets initial ↔
    ∃ subset place, subsets[place]? = some subset ∧
      HasRow (deadPlace? policy subsets) (subset, place) ∧
      row = rowOf nfa (Subset.index subsets) (deadPlace? policy subsets) alphabet.eraseDups
        (subset, place) ∧
      (place ∈ entered initial (listedRows nfa alphabet policy subsets) ∨
        policy = .total ∧ subset ≠ []) := by
  rw [keptRows, mem_kept, listedRows, mem_rowsOf]
  constructor
  · rintro ⟨⟨subset, place, listed, present, rfl⟩, isKept⟩
    exact ⟨subset, place, listed, present, rfl, isKept⟩
  · rintro ⟨subset, place, listed, present, rfl, isKept⟩
    exact ⟨⟨subset, place, listed, present, rfl⟩, isKept⟩

theorem pairwise_keptRows :
    (keptRows nfa alphabet policy subsets initial).Pairwise (·.place < ·.place) :=
  pairwise_kept pairwise_rowsOf

theorem keptRows_subsets_sublist :
    ((keptRows nfa alphabet policy subsets initial).map (·.subset)).Sublist subsets :=
  (List.filter_sublist.map _).trans rowsOf_subsets_sublist

theorem subset_mem_of_mem_keptRows (isKept : row ∈ keptRows nfa alphabet policy subsets initial) :
    row.subset ∈ subsets :=
  keptRows_subsets_sublist.subset (List.mem_map_of_mem isKept)

/-- The place of a row that is kept names no other row. -/
theorem eq_of_place_eq {other : Row}
    (isKept : row ∈ keptRows nfa alphabet policy subsets initial)
    (otherKept : other ∈ keptRows nfa alphabet policy subsets initial)
    (same : row.place = other.place) : row = other := by
  have distinct : ((keptRows nfa alphabet policy subsets initial).map (·.place)).Nodup :=
    (List.pairwise_map.mpr pairwise_keptRows).imp Nat.ne_of_lt
  exact List.inj_on_of_nodup_map distinct isKept otherKept same

theorem lookup_rowOf {index : Subset.Index} {dead : Option Nat} (symbols : List Symbol)
    (entry : Subset × Nat) (symbol : Symbol) :
    (rowOf nfa index dead symbols entry).targets.lookup symbol =
      if symbol ∈ symbols then targetPlace? nfa index dead entry.1 symbol else none := by
  change (symbols.filterMap fun symbol =>
    (targetPlace? nfa index dead entry.1 symbol).map fun target => (symbol, target)).lookup symbol = _
  induction symbols with
  | nil => rfl
  | cons first rest ih =>
    rw [List.filterMap_cons]
    by_cases same : symbol = first
    · subst same
      cases place : targetPlace? nfa index dead entry.1 symbol with
      | none => simp [place, ih]
      | some target => simp
    · have elsewhere : (symbol == first) = false := beq_eq_false_iff_ne.mpr same
      cases targetPlace? nfa index dead entry.1 first with
      | none => simp [ih, same]
      | some target => simp [ih, same, List.lookup_cons, elsewhere]

/-- The targets of the row of a subset are where the subset leads. -/
theorem placeOf?_of_mem_targets {target : Symbol × Nat}
    (member : target ∈ (rowOf nfa (Subset.index subsets) (deadPlace? policy subsets)
      alphabet.eraseDups (subset, place)).targets) :
    target.1 ∈ alphabet ∧ placeOf? nfa policy subsets subset target.1 = some target.2 := by
  obtain ⟨symbol, known, leads⟩ := List.mem_filterMap.mp member
  obtain ⟨there, found, rfl⟩ := Option.map_eq_some_iff.mp leads
  exact ⟨List.mem_eraseDups.mp known, found⟩

/-- A place is entered if it is initial or a non-empty subset leads there. -/
theorem mem_entered_listedRows :
    place ∈ entered initial (listedRows nfa alphabet policy subsets) ↔
      place = initial ∨ ∃ subset ∈ subsets, subset ≠ [] ∧ ∃ symbol ∈ alphabet,
        placeOf? nfa policy subsets subset symbol = some place := by
  rw [mem_entered]
  apply or_congr_right
  constructor
  · rintro ⟨row, member, filled, target, inRow, rfl⟩
    obtain ⟨subset, source, listed, _, rfl⟩ := mem_rowsOf.mp member
    obtain ⟨known, leads⟩ := placeOf?_of_mem_targets inRow
    exact ⟨subset, List.mem_of_getElem? listed, filled, target.1, known, leads⟩
  · rintro ⟨subset, member, filled, symbol, known, leads⟩
    obtain ⟨source, listed⟩ := List.mem_iff_getElem?.mp member
    refine ⟨_, mem_rowsOf.mpr ⟨subset, source, listed, .inl filled, rfl⟩, filled,
      (symbol, place), ?_, rfl⟩
    refine List.mem_filterMap.mpr ⟨symbol, List.mem_eraseDups.mpr known, ?_⟩
    exact congrArg (Option.map fun target => (symbol, target)) leads

/-- The initial state alone has a row that is kept. -/
theorem exists_initial_row (found : Found nfa alphabet policy subsets initial) :
    ∃ row ∈ keptRows nfa alphabet policy subsets initial,
      row.place = initial ∧ NameSet.ofList row.subset = {nfa.initial} := by
  obtain ⟨subset, listed, members⟩ := Subset.getElem?_of_index found.initial_eq
  have filled : subset ≠ [] := by
    rintro rfl
    exact NameSet.singleton_ne_empty nfa.initial members.symm
  refine ⟨_, mem_keptRows.mpr ⟨subset, initial, listed, .inl filled, rfl, .inl ?_⟩, rfl, members⟩
  exact mem_entered_listedRows.mpr (.inl rfl)

/-- Where a row that is kept leads, there is a row that is kept. -/
theorem exists_target_row (isKept : row ∈ keptRows nfa alphabet policy subsets initial)
    (known : symbol ∈ alphabet)
    (leads : placeOf? nfa policy subsets row.subset symbol = some place) :
    ∃ other ∈ keptRows nfa alphabet policy subsets initial,
      other.place = place ∧ NameSet.ofList other.subset = nfa.targetsOf row.subset symbol := by
  obtain ⟨other, listed, present, members⟩ := exists_of_placeOf? leads
  obtain ⟨subset, source, sourceListed, sourcePresent, rfl, reason⟩ := mem_keptRows.mp isKept
  refine ⟨_, mem_keptRows.mpr ⟨other, place, listed, present, rfl, ?_⟩, rfl, members⟩
  by_cases filled : subset = []
  · -- only the dead state has no members, and it leads to itself
    subst filled
    have isDead := sourcePresent.resolve_left (not_not_intro rfl)
    have same : place = source := by
      change targetPlace? _ _ _ [] symbol = _ at leads
      rw [targetPlace?_nil, isDead, Option.some.injEq] at leads
      exact leads.symm
    subst same
    rcases reason with isEntered | ⟨_, nonempty⟩
    · exact .inl isEntered
    · exact absurd rfl nonempty
  · exact .inl (mem_entered_listedRows.mpr
      (.inr ⟨subset, List.mem_of_getElem? sourceListed, filled, symbol, known, leads⟩))

/-- Whatever is looked up when states are made is there: an entered place has a row that is kept,
and so has each place to which such a row leads. -/
structure Closed (nfa : NFA) (alphabet : List Symbol) (policy : Policy) (subsets : List Subset)
    (initial : Nat) : Prop where
  entered : ∀ place ∈ entered initial (listedRows nfa alphabet policy subsets),
    ∃ row ∈ keptRows nfa alphabet policy subsets initial, row.place = place
  targets : ∀ row ∈ keptRows nfa alphabet policy subsets initial, ∀ target ∈ row.targets,
    ∃ other ∈ keptRows nfa alphabet policy subsets initial, other.place = target.2

theorem closed_of_found (found : Found nfa alphabet policy subsets initial) :
    Closed nfa alphabet policy subsets initial where
  entered := by
    intro place isEntered
    rcases mem_entered_listedRows.mp isEntered with rfl | ⟨subset, _, _, symbol, _, leads⟩
    · obtain ⟨row, isKept, atInitial, _⟩ := exists_initial_row found
      exact ⟨row, isKept, atInitial⟩
    · obtain ⟨other, listed, present, _⟩ := exists_of_placeOf? leads
      exact ⟨_, mem_keptRows.mpr ⟨other, place, listed, present, rfl, .inl isEntered⟩, rfl⟩
  targets := by
    intro row isKept target inRow
    obtain ⟨subset, source, _, _, rfl, _⟩ := mem_keptRows.mp isKept
    obtain ⟨known, leads⟩ := placeOf?_of_mem_targets inRow
    obtain ⟨other, otherKept, atTarget, _⟩ := exists_target_row isKept known leads
    exact ⟨other, otherKept, atTarget⟩

end Determinizer.SubsetConstruction
