import Determinizer.Proofs.File.Preservation

/-! # What saving a file changes

To save a file the folders above it are made and the file is written where its path leads, over what
the file there held before. No other file changes, and none does where saving fails on the way.
-/

namespace Determinizer.File.Tree

variable {tree after : Tree} {target : Location} {path : String} {contents : ByteArray}
  {fault : Fault}

theorem changesOnly_ensureNamed (tree : Tree) (path : String) :
    ChangesOnly [] tree (tree.ensureNamed path).1 := by
  rw [ensureNamed]
  split
  · exact .refl _ _
  · exact changesOnly_ensureFolder tree path

/-- Making the folders of a path from the top down changes no file, also where it fails. -/
theorem changesOnly_makeFolders (tree : Tree) (limit : Nat) (paths : List String) :
    ChangesOnly [] tree (tree.makeFolders limit paths).1 := by
  fun_induction makeFolders tree limit paths with
  | case1 => exact .refl _ _
  | case2 => exact .refl _ _
  | case3 more path above there => exact changesOnly_ensureFolder tree path
  | case4 more path above gone grown made ih =>
    rw [made] at ih
    exact ih.trans (changesOnly_ensureNamed grown path)
  | case5 more path above gone grown made ih =>
    rw [made] at ih
    exact ih.trans (changesOnly_ensureNamed grown path)
  | case6 more path above gone grown fault other made ih =>
    rw [made] at ih
    exact ih

theorem parts_eq_concat (path : String) :
    Path.parts path = (Path.parts path).dropLast ++ [(Path.parts path).getLastD ""] := by
  have filled : Path.parts path ≠ [] := by
    rw [Path.parts, Ne, List.map_eq_nil_iff]
    exact Text.pieces_ne_nil _ _
  rw [List.getLastD_eq_getLast?, List.getLast?_eq_some_getLast filled, Option.getD_some,
    List.dropLast_concat_getLast filled]

/-- A file is written where its path leads, and not in place of a folder. -/
theorem locate_of_writeTarget (found : tree.writeTarget path = .ok target) :
    tree.locate path = .ok target ∧ target ≠ [] ∧ tree.node? target ≠ some .folder := by
  rw [writeTarget, bind_eq_ok_iff] at found
  obtain ⟨_, checked, found⟩ := found
  simp only [bind_eq_ok_iff, ite_error_eq_ok_iff, Bool.or_eq_true, beq_iff_eq, not_or] at found
  obtain ⟨folder, followed, ⟨⟩, isFolder, ⟨active, down⟩, short, found⟩ := found
  split at found
  · contradiction
  rename_i free
  obtain rfl := Except.ok.inj found
  refine ⟨?_, by simp, free⟩
  have whole := follow_append_name followed (requireFolder_eq_ok_iff.mp isFolder)
    (Nat.not_lt.mp short)
  rw [← parts_eq_concat, Path.step_eq_append (Bool.eq_false_iff.mpr active) down] at whole
  rw [locate, bind_eq_ok_iff]
  exact ⟨_, checked, whole⟩

/-- A file that is saved has the new contents, and no other file has changed. -/
theorem effect_of_save (saved : tree.save path contents = (after, .ok ())) :
    after.read path = .ok contents ∧
      after.node? (Path.normalize tree.current path) = some (.file contents) ∧
      ChangesOnly [Path.normalize tree.current path] tree after := by
  rw [save] at saved
  have made := changesOnly_makeFolders tree maxMade (Path.foldersAbove path)
  split at saved
  · simp at saved
  rename_i grown folders
  rw [folders] at made
  split at saved
  · simp at saved
  rename_i target found
  obtain rfl := (Prod.mk.inj saved).1
  obtain ⟨located, below, free⟩ := locate_of_writeTarget found
  have written : ChangesOnly [target] grown (grown.put target (.file contents)) :=
    changesOnly_put_file below free contents
  have stands : (grown.put target (.file contents)).node? target = some (.file contents) := by
    rw [node?_put below, if_pos rfl]
  have target_eq : target = Path.normalize tree.current path :=
    (eq_normalize_of_locate located).trans (congrArg (Path.normalize · path) made.current_eq)
  rw [← target_eq]
  exact ⟨read_of_locate (locate_of_keepsFolders written.folders written.current_eq located) stands,
    stands, (made.mono (List.nil_subset _)).trans written⟩

/-- Whether a file can be saved does not depend on its contents. -/
theorem save_result_eq (tree : Tree) (path : String) (old new : ByteArray) :
    (tree.save path old).2 = (tree.save path new).2 := by
  rw [save, save]
  split
  · rfl
  · split <;> rfl

end Determinizer.File.Tree
