/-! # Tables in order of insertion

A table maps keys to values and remembers the order in which its keys first appeared. Writing to a
key that is present replaces its value and leaves it at its place; writing to a new key puts it at
the end. No key stands twice.
-/

namespace Determinizer

/-- Key and value pairs, each key once, oldest first. -/
structure Table (κ ν : Type) where
  entries : List (κ × ν)
  keys_nodup : (entries.map Prod.fst).Nodup
  deriving DecidableEq

namespace Table

variable {κ ν : Type}

def empty : Table κ ν := ⟨[], List.nodup_nil⟩

instance : EmptyCollection (Table κ ν) := ⟨empty⟩

instance : Inhabited (Table κ ν) := ⟨empty⟩

def keys (table : Table κ ν) : List κ := table.entries.map Prod.fst

variable [DecidableEq κ]

def get? (table : Table κ ν) (key : κ) : Option ν := table.entries.lookup key

/-- The pairs after a write at `key`; `update` receives the old value. -/
def writeEntries (key : κ) (update : Option ν → ν) : List (κ × ν) → List (κ × ν)
  | [] => [(key, update none)]
  | (k, v) :: rest =>
    if k = key then (k, update (some v)) :: rest else (k, v) :: writeEntries key update rest

theorem mem_keys_writeEntries (key k : κ) (update : Option ν → ν) (entries : List (κ × ν)) :
    k ∈ (writeEntries key update entries).map Prod.fst ↔ k = key ∨ k ∈ entries.map Prod.fst := by
  induction entries with
  | nil => simp [writeEntries]
  | cons entry rest ih =>
    rw [writeEntries]
    split <;> grind

theorem nodup_keys_writeEntries (key : κ) (update : Option ν → ν) (entries : List (κ × ν))
    (nodup : (entries.map Prod.fst).Nodup) :
    ((writeEntries key update entries).map Prod.fst).Nodup := by
  induction entries with
  | nil => simp [writeEntries]
  | cons entry rest ih =>
    rw [List.map_cons, List.nodup_cons] at nodup
    rw [writeEntries]
    split
    · simpa using nodup
    · rename_i different
      rw [List.map_cons, List.nodup_cons, mem_keys_writeEntries]
      refine ⟨?_, ih nodup.2⟩
      rintro (same | inside)
      · exact different same
      · exact nodup.1 inside

/-- Replaces the value at `key` by what `update` makes of it, at the end if the key is new. -/
def write (table : Table κ ν) (key : κ) (update : Option ν → ν) : Table κ ν :=
  ⟨writeEntries key update table.entries, nodup_keys_writeEntries key update _ table.keys_nodup⟩

def insert (table : Table κ ν) (key : κ) (value : ν) : Table κ ν :=
  table.write key fun _ => value

/-- Takes a key out. -/
def erase (table : Table κ ν) (key : κ) : Table κ ν :=
  ⟨table.entries.filter fun entry => entry.1 ≠ key,
    (List.filter_sublist.map Prod.fst).nodup table.keys_nodup⟩

/-- The table of a list of pairs; of two pairs with one key the later value stands. -/
def ofList (pairs : List (κ × ν)) : Table κ ν :=
  pairs.foldl (fun table pair => table.insert pair.1 pair.2) ∅

@[simp] theorem mem_keys_write (table : Table κ ν) (key k : κ) (update : Option ν → ν) :
    k ∈ (table.write key update).keys ↔ k = key ∨ k ∈ table.keys :=
  mem_keys_writeEntries key k update table.entries

@[simp] theorem mem_keys_insert (table : Table κ ν) (key k : κ) (value : ν) :
    k ∈ (table.insert key value).keys ↔ k = key ∨ k ∈ table.keys :=
  mem_keys_write table key k _

@[simp] theorem get?_empty (key : κ) : (∅ : Table κ ν).get? key = none := rfl

/-- A write is seen at its own key and nowhere else. -/
theorem get?_write (table : Table κ ν) (key k : κ) (update : Option ν → ν) :
    (table.write key update).get? k =
      if k = key then some (update (table.get? key)) else table.get? k := by
  change (writeEntries key update table.entries).lookup k =
    if k = key then some (update (table.entries.lookup key)) else table.entries.lookup k
  induction table.entries with
  | nil => by_cases same : k = key <;> simp [writeEntries, same]
  | cons entry rest ih =>
    simp only [writeEntries]
    split <;> grind

theorem get?_insert (table : Table κ ν) (key k : κ) (value : ν) :
    (table.insert key value).get? k = if k = key then some value else table.get? k :=
  get?_write table key k _

/-- Pairs with different keys are found as they stand in their list. -/
theorem get?_ofList {pairs : List (κ × ν)} (distinct : (pairs.map Prod.fst).Nodup) (key : κ) :
    (ofList pairs).get? key = pairs.lookup key := by
  have general : ∀ table : Table κ ν,
      (pairs.foldl (fun table pair => table.insert pair.1 pair.2) table).get? key =
        (pairs.lookup key).or (table.get? key) := by
    induction pairs with
    | nil => simp
    | cons pair rest ih =>
      obtain ⟨first, value⟩ := pair
      obtain ⟨fresh, later⟩ := List.nodup_cons.mp distinct
      intro table
      rw [List.foldl_cons, ih later, get?_insert, List.lookup_cons]
      by_cases same : key = first
      · have absent : rest.lookup key = none := by
          rw [List.lookup_eq_none_iff]
          intro other member
          refine bne_iff_ne.mpr fun equal => fresh ?_
          exact List.mem_map.mpr ⟨other, member, equal.symm.trans same⟩
        rw [absent, if_pos same, beq_iff_eq.mpr same]
        rfl
      · rw [if_neg same, beq_eq_false_iff_ne.mpr same]
  exact (general ∅).trans (by simp)

theorem get?_eq_none_iff (table : Table κ ν) (key : κ) :
    table.get? key = none ↔ key ∉ table.keys := by
  unfold get? keys
  induction table.entries with
  | nil => simp
  | cons entry rest ih => grind

theorem get?_erase (table : Table κ ν) (key k : κ) :
    (table.erase key).get? k = if k = key then none else table.get? k := by
  change (table.entries.filter fun entry => entry.1 ≠ key).lookup k =
    if k = key then none else table.entries.lookup k
  induction table.entries with
  | nil => simp
  | cons entry rest ih =>
    rw [List.filter_cons]
    split <;> grind

/-- Of two values that are written to one key the later stands. -/
theorem insert_insert (table : Table κ ν) (key : κ) (old new : ν) :
    (table.insert key old).insert key new = table.insert key new := by
  rcases table with ⟨entries, nodup⟩
  rw [insert, write, mk.injEq]
  change writeEntries key (fun _ => new) (writeEntries key (fun _ => old) entries) =
    writeEntries key (fun _ => new) entries
  clear nodup
  induction entries with
  | nil => simp [writeEntries]
  | cons entry rest ih =>
    simp only [writeEntries]
    by_cases same : entry.1 = key
    · simp [same, writeEntries]
    · simp [same, writeEntries, ih]

/-- Writing to a new key and taking it out again leaves the table as it was. -/
theorem erase_insert_of_not_mem {table : Table κ ν} {key : κ} (fresh : key ∉ table.keys) (value : ν) :
    (table.insert key value).erase key = table := by
  rcases table with ⟨entries, nodup⟩
  change key ∉ entries.map Prod.fst at fresh
  rw [mk.injEq]
  change (writeEntries key (fun _ => value) entries).filter (fun entry => entry.1 ≠ key) = entries
  clear nodup
  induction entries with
  | nil => simp [writeEntries]
  | cons entry rest ih =>
    rw [List.map_cons, List.mem_cons, not_or] at fresh
    rw [writeEntries, if_neg (Ne.symm fresh.1), List.filter_cons, if_pos (by simpa using Ne.symm fresh.1),
      ih fresh.2]

end Table

end Determinizer
