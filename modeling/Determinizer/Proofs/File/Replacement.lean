import Determinizer.File.Replacement
import Determinizer.Proofs.Text.Words

/-! # A replaced file is read back

Following a path only asks which locations are folders. A replacement makes and removes files alone
and puts none in place of a folder, so after it the path leads to the location to which the new
file was moved, and reading gives the new contents.
-/

namespace Determinizer.File.Tree

variable {tree after : Tree} {location other folder target : Location} {node : Node}
  {part name path : String} {parts : List String} {contents : ByteArray}

theorem node?_put (below : location ≠ []) (node : Node) (other : Location) :
    (tree.put location node).node? other =
      if other = location then some node else tree.node? other := by
  cases other with
  | nil => rw [if_neg (Ne.symm below)]; rfl
  | cons first rest => exact Table.get?_insert ..

theorem node?_remove (below : location ≠ []) (other : Location) :
    (tree.remove location).node? other = if other = location then none else tree.node? other := by
  cases other with
  | nil => rw [if_neg (Ne.symm below)]; rfl
  | cons first rest => exact Table.get?_erase ..

theorem bind_eq_ok_iff {α β : Type} {first : Except Fault α} {later : α → Except Fault β}
    {result : β} :
    (first >>= later) = .ok result ↔ ∃ value, first = .ok value ∧ later value = .ok result := by
  cases first <;> simp [bind, Except.bind]

theorem ite_error_eq_ok_iff {α : Type} {condition : Prop} [Decidable condition] {fault : Fault}
    {otherwise : Except Fault α} {result : α} :
    (if condition then .error fault else otherwise) = .ok result ↔
      ¬condition ∧ otherwise = .ok result := by
  split <;> simp_all

theorem requireFolder_eq_ok_iff :
    tree.requireFolder location = .ok () ↔ tree.node? location = some .folder := by
  unfold requireFolder
  split <;> simp_all

/-- Every folder of one tree is a folder of the other. -/
def KeepsFolders (tree after : Tree) : Prop :=
  ∀ location, tree.node? location = some .folder → after.node? location = some .folder

theorem follow_cons_eq_ok_iff : tree.follow location (part :: parts) = .ok target ↔
    tree.node? location = some .folder ∧ part.utf8ByteSize ≤ maxName ∧
      tree.follow (Path.step location part) parts = .ok target := by
  simp only [follow, bind_eq_ok_iff, ite_error_eq_ok_iff, ← requireFolder_eq_ok_iff, Nat.not_lt]
  exact ⟨fun ⟨(), found, later⟩ => ⟨found, later⟩, fun ⟨found, later⟩ => ⟨(), found, later⟩⟩

/-- Parts that can be followed can be followed where all folders are kept. -/
theorem follow_of_keepsFolders (kept : tree.KeepsFolders after)
    (followed : tree.follow location parts = .ok target) :
    after.follow location parts = .ok target := by
  induction parts generalizing location with
  | nil => exact followed
  | cons part rest ih =>
    obtain ⟨isFolder, short, later⟩ := follow_cons_eq_ok_iff.mp followed
    exact follow_cons_eq_ok_iff.mpr ⟨kept location isFolder, short, ih later⟩

/-- A name is followed from the folder to which the parts before it lead. -/
theorem follow_append_name (followed : tree.follow location parts = .ok folder)
    (isFolder : tree.node? folder = some .folder) (short : name.utf8ByteSize ≤ maxName) :
    tree.follow location (parts ++ [name]) = .ok (Path.step folder name) := by
  induction parts generalizing location with
  | nil =>
    obtain rfl := Except.ok.inj followed
    exact follow_cons_eq_ok_iff.mpr ⟨isFolder, short, rfl⟩
  | cons part rest ih =>
    obtain ⟨here, fits, later⟩ := follow_cons_eq_ok_iff.mp followed
    exact follow_cons_eq_ok_iff.mpr ⟨here, fits, ih later⟩

end Determinizer.File.Tree

namespace Determinizer.File.Path

variable {path name : String} {above : List String}

/-- Without a slash at its end, a path ends with its last name. -/
theorem parts_of_lastName? (filled : path.toList ≠ []) (noSlash : path.toList.getLast? ≠ some '/')
    (found : lastName? path = some (above, name)) : parts path = above ++ [name] := by
  have ends : (Text.pieces (· == '/') path.toList).getLast? ≠ some [] := by
    apply Text.getLast?_pieces_ne_nil filled
    rintro c last
    exact beq_eq_false_iff_ne.mpr fun same => noSlash (same ▸ last)
  have visible : (parts path).getLast? ≠ some "" := by
    rw [parts, List.getLast?_map]
    simpa using ends
  rw [lastName?, ← List.head?_reverse] at *
  cases reversed : (parts path).reverse with
  | nil => simp [reversed] at found
  | cons last before =>
    rw [reversed, List.head?_cons, Ne, Option.some.injEq] at visible
    rw [reversed, List.dropWhile_cons_of_neg (by simpa using visible)] at found
    obtain ⟨rfl, rfl⟩ := Prod.mk.inj (Option.some.inj found)
    rw [← List.reverse_reverse (parts path), reversed, List.reverse_cons]

theorem ne_empty_of_lastName? (found : lastName? path = some (above, name)) : name ≠ "" := by
  unfold lastName? at found
  split at found
  · contradiction
  · rename_i last before rest_eq
    obtain ⟨-, rfl⟩ := Prod.mk.inj (Option.some.inj found)
    have kept := @List.head?_dropWhile_not _ (· == "") (parts path).reverse
    simpa [rest_eq] using kept

/-- A name that stays at no folder and goes up to none is a step down. -/
theorem step_eq_append {location : Location} (idle : isIdle name = false) (down : name ≠ "..") :
    step location name = location ++ [name] := by
  simp [step, idle, down]

end Determinizer.File.Path

namespace Determinizer.File.Tree

variable {tree after : Tree} {target : Location} {path : String} {contents : ByteArray}

/-- A file can be moved only to where the path leads, and not in place of a folder. -/
theorem locate_of_moveTarget (moved : tree.moveTarget path = .ok target) :
    tree.locate path = .ok target ∧ target ≠ [] ∧ tree.node? target ≠ some .folder := by
  rw [moveTarget, bind_eq_ok_iff] at moved
  obtain ⟨_, checked, moved⟩ := moved
  split at moved
  · contradiction
  rename_i above name found
  simp only [bind_eq_ok_iff, ite_error_eq_ok_iff, Bool.or_eq_true, beq_iff_eq, not_or] at moved
  obtain ⟨folder, followed, ⟨⟩, isFolder, ⟨here, up⟩, short, noSlash, moved⟩ := moved
  have nonempty := Path.ne_empty_of_lastName? found
  split at moved
  · contradiction
  rename_i free
  obtain rfl := Except.ok.inj moved
  refine ⟨?_, by simp, free⟩
  have filled : path.toList ≠ [] := by
    rintro empty
    rw [Path.lastName?, Path.parts, empty] at found
    contradiction
  rw [locate, bind_eq_ok_iff]
  refine ⟨_, checked, ?_⟩
  rw [Path.parts_of_lastName? filled noSlash found,
    follow_append_name followed (requireFolder_eq_ok_iff.mp isFolder) (Nat.not_lt.mp short),
    Path.step_eq_append (by simp [Path.isIdle, nonempty, here]) up]

/-- Where the same folders stand, a path leads to the same place. -/
theorem locate_of_keepsFolders (kept : tree.KeepsFolders after)
    (current_eq : after.current = tree.current) (located : tree.locate path = .ok target) :
    after.locate path = .ok target := by
  rw [locate, bind_eq_ok_iff] at located ⊢
  obtain ⟨_, checked, followed⟩ := located
  exact ⟨_, checked, current_eq ▸ follow_of_keepsFolders kept followed⟩

theorem read_of_locate (located : tree.locate path = .ok target)
    (stands : tree.node? target = some (.file contents)) : tree.read path = .ok contents := by
  simp only [read, stat, located, bind, Except.bind, stands]

theorem ne_nil_of_temporaryLocation (found : tree.temporaryLocation path = .ok target) :
    target ≠ [] := by
  rw [temporaryLocation] at found
  split at found
  · contradiction
  · simp only [bind_eq_ok_iff] at found
    obtain ⟨_, _, folder, _, _, _, found⟩ := found
    obtain rfl := Except.ok.inj found
    simp

/-- A file moved from one location to another takes away no folder. -/
theorem keepsFolders_move {temporary : Location} (apart : temporary ≠ []) (below : target ≠ [])
    (isFile : tree.node? temporary ≠ some .folder) (free : tree.node? target ≠ some .folder) :
    tree.KeepsFolders ((tree.remove temporary).put target (.file contents)) := by
  intro location isFolder
  have elsewhere : location ≠ target := fun same => free (same ▸ isFolder)
  have kept : location ≠ temporary := fun same => isFile (same ▸ isFolder)
  rw [node?_put below, if_neg elsewhere, node?_remove apart, if_neg kept, isFolder]

/-- A replacement ends with the move of a temporary file that has the new contents. -/
theorem exists_move_of_replaceFile {refusals : Refusals}
    (replaced : tree.replaceFile refusals path contents = (after, .ok ())) :
    ∃ (filled : Tree) (temporary target : Location), temporary ≠ [] ∧
      filled.node? temporary = some (.file contents) ∧ filled.moveTarget path = .ok target ∧
      after = (filled.remove temporary).put target (.file contents) := by
  simp only [replaceFile] at replaced
  split at replaced
  · simp at replaced
  · simp at replaced
  rename_i temporary located _
  have apart := ne_nil_of_temporaryLocation located
  split at replaced
  · simp at replaced
  split at replaced
  · simp at replaced
  · simp at replaced
  rename_i target moved _
  exact ⟨_, temporary, target, apart, by simp [node?_put apart], moved,
    (Prod.mk.inj replaced).1.symm⟩

/-- After a replacement the path has the new contents. -/
theorem read_replaceFile {refusals : Refusals}
    (replaced : tree.replaceFile refusals path contents = (after, .ok ())) :
    after.read path = .ok contents := by
  obtain ⟨filled, temporary, target, apart, stands, moved, rfl⟩ :=
    exists_move_of_replaceFile replaced
  obtain ⟨leads, below, free⟩ := locate_of_moveTarget moved
  have isFile : filled.node? temporary ≠ some .folder := by
    rw [stands]
    nofun
  have kept : filled.KeepsFolders ((filled.remove temporary).put target (.file contents)) :=
    keepsFolders_move apart below isFile free
  exact read_of_locate (locate_of_keepsFolders kept rfl leads) (by simp [node?_put below])

end Determinizer.File.Tree
