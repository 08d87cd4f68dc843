import Determinizer.SubsetConstruction
import Mathlib.Data.List.Nodup

/-! # Rows of the subset construction

A row is determined by its subset and its place. The targets of a subset on a symbol are at the
place where the index finds them, or at the dead place if there are none. The rows exist unless some
listed subset has targets that are not listed; the first such targets, subset by subset and symbol
by symbol, are then the error.
-/

namespace Determinizer.SubsetConstruction

variable {nfa : NFA} {index : Subset.Index} {dead : Option Nat} {subset : Subset} {place : Nat}
  {symbol : Symbol} {symbols : List Symbol} {subsets : List Subset}

/-- The place of the targets of a subset, `dead` if there are none. -/
def targetPlace? (nfa : NFA) (index : Subset.Index) (dead : Option Nat) (subset : Subset)
    (symbol : Symbol) : Option Nat :=
  if nfa.targetsOf subset symbol = ∅ then dead else index[nfa.targetsOf subset symbol]?

/-- The targets of a subset on a symbol, if there are any, are in the index. -/
def Listed (nfa : NFA) (index : Subset.Index) (subset : Subset) (symbol : Symbol) : Prop :=
  nfa.targetsOf subset symbol = ∅ ∨ ∃ place, index[nfa.targetsOf subset symbol]? = some place

instance (nfa : NFA) (index : Subset.Index) (subset : Subset) (symbol : Symbol) :
    Decidable (Listed nfa index subset symbol) :=
  decidable_of_iff
    (nfa.targetsOf subset symbol = ∅ ∨ (index[nfa.targetsOf subset symbol]?).isSome = true)
    (by rw [Listed, Option.isSome_iff_exists])

/-- The first targets of a subset that are not listed. -/
def unlisted? (nfa : NFA) (index : Subset.Index) (symbols : List Symbol) (subset : Subset) :
    Option NameSet :=
  symbols.findSome? fun symbol =>
    if Listed nfa index subset symbol then none else some (nfa.targetsOf subset symbol)

/-- The first targets of listed subsets that are not listed. -/
def firstUnlisted? (nfa : NFA) (index : Subset.Index) (symbols : List Symbol)
    (subsets : List Subset) : Option NameSet :=
  subsets.findSome? (unlisted? nfa index symbols)

/-- A value, or the error of targets that are not listed. -/
def unlessUnlisted {α : Type} : Option NameSet → α → Except Error α
  | none, value => .ok value
  | some names, _ => .error (.unlistedSubset names)

/-- The row of a subset whose targets are listed. -/
def rowOf (nfa : NFA) (index : Subset.Index) (dead : Option Nat) (symbols : List Symbol)
    (entry : Subset × Nat) : Row where
  place := entry.2
  subset := entry.1
  targets := symbols.filterMap fun symbol =>
    (targetPlace? nfa index dead entry.1 symbol).map fun target => (symbol, target)

/-- A subset has a row if it is not empty or is the dead state. -/
def HasRow (dead : Option Nat) (entry : Subset × Nat) : Prop :=
  entry.1 ≠ [] ∨ dead = some entry.2

instance (dead : Option Nat) (entry : Subset × Nat) : Decidable (HasRow dead entry) :=
  inferInstanceAs (Decidable (entry.1 ≠ [] ∨ dead = some entry.2))

theorem targetsOf_nil (symbol : Symbol) : nfa.targetsOf [] symbol = ∅ := rfl

theorem targetPlace?_nil (symbol : Symbol) : targetPlace? nfa index dead [] symbol = dead := by
  rw [targetPlace?, targetsOf_nil, if_pos rfl]

theorem listed_nil (symbol : Symbol) : Listed nfa index [] symbol := .inl (targetsOf_nil symbol)

/-- The row of the dead state leads to itself on every symbol. -/
theorem rowOf_nil (place : Nat) : rowOf nfa index (some place) symbols ([], place) =
    ⟨place, [], symbols.map fun symbol => (symbol, place)⟩ := by
  simp only [rowOf, targetPlace?_nil, Option.map_some, Row.mk.injEq, true_and]
  exact congrFun List.filterMap_eq_map' symbols

theorem unlisted?_eq_none_iff : unlisted? nfa index symbols subset = none ↔
    ∀ symbol ∈ symbols, Listed nfa index subset symbol := by
  simp [unlisted?, List.findSome?_eq_none_iff]

theorem firstUnlisted?_eq_none_iff : firstUnlisted? nfa index symbols subsets = none ↔
    ∀ subset ∈ subsets, ∀ symbol ∈ symbols, Listed nfa index subset symbol := by
  simp only [firstUnlisted?, List.findSome?_eq_none_iff, unlisted?_eq_none_iff]

theorem unlisted?_nil : unlisted? nfa index symbols [] = none :=
  unlisted?_eq_none_iff.mpr fun symbol _ => listed_nil symbol

theorem unlisted?_cons (symbol : Symbol) (rest : List Symbol) :
    unlisted? nfa index (symbol :: rest) subset =
      if Listed nfa index subset symbol then unlisted? nfa index rest subset
      else some (nfa.targetsOf subset symbol) := by
  rw [unlisted?, List.findSome?_cons]
  by_cases listed : Listed nfa index subset symbol
  · rw [if_pos listed, if_pos listed]
    rfl
  · rw [if_neg listed, if_neg listed]

theorem firstUnlisted?_cons (subset : Subset) (rest : List Subset) :
    firstUnlisted? nfa index symbols (subset :: rest) =
      (unlisted? nfa index symbols subset).or (firstUnlisted? nfa index symbols rest) := by
  rw [firstUnlisted?, List.findSome?_cons]
  cases unlisted? nfa index symbols subset <;> rfl

/-- The first symbol decides: its targets are not listed, or its place stands before the others. -/
theorem rowTargets_cons (dead : Option Nat) (symbol : Symbol) (rest : List Symbol) :
    rowTargets nfa index dead subset (symbol :: rest) =
      if Listed nfa index subset symbol then
        (rowTargets nfa index dead subset rest).map fun later =>
          ((targetPlace? nfa index dead subset symbol).map fun target => (symbol, target)).toList ++
            later
      else .error (.unlistedSubset (nfa.targetsOf subset symbol)) := by
  rw [rowTargets, targetPlace?]
  by_cases none : nfa.targetsOf subset symbol = ∅
  · rw [if_pos (NameSet.isEmpty_iff.mpr none), if_pos none, if_pos (.inl none)]
    cases rowTargets nfa index dead subset rest <;> cases dead <;> rfl
  · rw [if_neg (NameSet.isEmpty_iff.not.mpr none), if_neg none]
    cases found : index[nfa.targetsOf subset symbol]? with
    | some place =>
      rw [if_pos (.inr ⟨place, found⟩)]
      cases rowTargets nfa index dead subset rest <;> rfl
    | none =>
      have missing : ¬ Listed nfa index subset symbol := by simp [Listed, none, found]
      rw [if_neg missing]
      rfl

theorem rowTargets_eq (symbols : List Symbol) (place : Nat) :
    rowTargets nfa index dead subset symbols =
      unlessUnlisted (unlisted? nfa index symbols subset)
        (rowOf nfa index dead symbols (subset, place)).targets := by
  induction symbols with
  | nil => rfl
  | cons symbol rest ih =>
    rw [rowTargets_cons, unlisted?_cons, ih]
    by_cases listed : Listed nfa index subset symbol
    · rw [if_pos listed, if_pos listed]
      cases unlisted? nfa index rest subset with
      | some names => rfl
      | none =>
        simp only [unlessUnlisted, rowOf, List.filterMap_cons, Except.map]
        cases targetPlace? nfa index dead subset symbol <;> rfl
    · rw [if_neg listed, if_neg listed]
      rfl

theorem row?_eq (symbols : List Symbol) (subset : Subset) (place : Nat) :
    row? nfa index dead symbols subset place =
      unlessUnlisted (unlisted? nfa index symbols subset)
        (if HasRow dead (subset, place) then some (rowOf nfa index dead symbols (subset, place))
          else none) := by
  rw [row?]
  cases subset with
  | nil =>
    rw [if_pos List.isEmpty_nil, unlisted?_nil]
    by_cases isDead : dead = some place
    · rw [if_pos isDead, if_pos (.inr isDead), isDead, rowOf_nil]
      rfl
    · have absent : ¬ HasRow dead ([], place) := by simp [HasRow, isDead]
      rw [if_neg isDead, if_neg absent]
      rfl
  | cons name rest =>
    have filled : HasRow dead (name :: rest, place) := .inl (List.cons_ne_nil _ _)
    rw [if_neg (by simp), if_pos filled, rowTargets_eq symbols place]
    cases unlisted? nfa index symbols (name :: rest) <;> rfl

/-- The rows of subsets that stand at some places, or the first targets that are not listed. -/
theorem filterMapM_row?_eq (symbols : List Symbol) (entries : List (Subset × Nat)) :
    entries.filterMapM (fun entry => row? nfa index dead symbols entry.1 entry.2) =
      unlessUnlisted (firstUnlisted? nfa index symbols (entries.map Prod.fst))
        ((entries.filter fun entry => decide (HasRow dead entry)).map
          (rowOf nfa index dead symbols)) := by
  induction entries with
  | nil => rfl
  | cons entry rest ih =>
    rw [List.filterMapM_cons, row?_eq, ih, List.map_cons, firstUnlisted?_cons, List.filter_cons]
    cases unlisted? nfa index symbols entry.1 with
    | some names => rfl
    | none =>
      rw [Option.none_or]
      cases firstUnlisted? nfa index symbols (rest.map Prod.fst) with
      | some names =>
        by_cases present : HasRow dead entry
        · rw [if_pos present]
          rfl
        · rw [if_neg present]
          rfl
      | none =>
        by_cases present : HasRow dead entry
        · rw [if_pos present, if_pos (decide_eq_true present)]
          rfl
        · rw [if_neg present, if_neg (by simpa using present)]
          rfl

end Determinizer.SubsetConstruction
