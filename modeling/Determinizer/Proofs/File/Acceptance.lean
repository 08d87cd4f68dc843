import Determinizer.Proofs.File.Preservation

/-! # When a file can be replaced

A path accepts a file if a temporary file can be made beside the place that the path spells and a
file can be moved to where it leads. The temporary file stands where nothing stood, and its name is
no part of the path, so it neither opens nor bars the way: a replacement succeeds exactly if the path
accepts a file in the tree as it is and no step is refused.
-/

namespace Determinizer.File

theorem Path.mem_parts_of_lastName? {path name : String} {above : List String}
    (found : lastName? path = some (above, name)) : name ∈ parts path := by
  unfold lastName? at found
  split at found
  · contradiction
  · rename_i last before rest_eq
    obtain ⟨-, rfl⟩ := Prod.mk.inj (Option.some.inj found)
    have member : last ∈ (parts path).reverse.dropWhile (· == "") := rest_eq ▸ List.mem_cons_self
    exact List.mem_reverse.mp ((List.dropWhile_sublist _).subset member)

namespace Tree

variable {tree after : Tree} {location target temporary : Location} {path : String}
  {contents : ByteArray} {refusals : Refusals}

/-- A temporary file can be made beside the place that a path spells, and a file can be moved to
where the path leads. -/
structure Accepts (tree : Tree) (path : String) : Prop where
  temporary : ∃ temporary, tree.temporaryLocation path = .ok temporary
  target : ∃ target, tree.moveTarget path = .ok target

section Moves

theorem requireFolder_of_keepsFolders (kept : tree.KeepsFolders after)
    (isFolder : tree.requireFolder location = .ok ()) : after.requireFolder location = .ok () :=
  requireFolder_eq_ok_iff.mpr (kept location (requireFolder_eq_ok_iff.mp isFolder))

/-- A file can be moved to the same place in every tree that has the same folders. -/
theorem moveTarget_of_sameFolders (kept : tree.KeepsFolders after)
    (noOther : after.KeepsFolders tree) (current_eq : after.current = tree.current)
    (moved : tree.moveTarget path = .ok target) : after.moveTarget path = .ok target := by
  rw [moveTarget, bind_eq_ok_iff] at moved ⊢
  obtain ⟨_, checked, moved⟩ := moved
  refine ⟨_, checked, ?_⟩
  cases found : Path.lastName? path with
  | none => simp [found] at moved
  | some last =>
    simp only [found, bind_eq_ok_iff, ite_error_eq_ok_iff] at moved ⊢
    obtain ⟨folder, followed, _, isFolder, named, short, noSlash, moved⟩ := moved
    rw [current_eq]
    refine ⟨folder, follow_of_keepsFolders kept followed, (),
      requireFolder_of_keepsFolders kept isFolder, named, short, noSlash, ?_⟩
    split at moved
    · contradiction
    · rename_i free
      split
      · rename_i isFolder
        exact absurd (noOther _ isFolder) free
      · exact moved

/-- A file at an unused place neither opens nor bars the way of a file that is moved. -/
theorem moveTarget_put_file_iff (below : temporary ≠ []) (unused : temporary ∉ tree.nodes.keys) :
    (tree.put temporary (.file contents)).moveTarget path = .ok target ↔
      tree.moveTarget path = .ok target := by
  have free := node?_eq_none_of_not_mem_keys below unused
  have kept : tree.KeepsFolders (tree.put temporary (.file contents)) :=
    (changesOnly_put_file below (by simp [free]) contents).folders
  have noOther : (tree.put temporary (.file contents)).KeepsFolders tree := by
    intro location isFolder
    rw [node?_put below] at isFolder
    split at isFolder
    · simp at isFolder
    · exact isFolder
  exact ⟨moveTarget_of_sameFolders noOther kept rfl, moveTarget_of_sameFolders kept noOther rfl⟩

end Moves

section Temporary

/-- The name of the temporary file is no part of the path. -/
theorem exists_name_of_temporaryLocation (found : tree.temporaryLocation path = .ok temporary) :
    ∃ folder name, temporary = folder ++ [name] ∧ name ∉ Path.parts path := by
  rw [temporaryLocation] at found
  split at found
  · contradiction
  · rename_i name free
    simp only [bind_eq_ok_iff] at found
    obtain ⟨_, _, folder, _, _, _, found⟩ := found
    obtain ⟨unnamed, _⟩ := Bool.or_eq_false_iff.mp (not_taken_of_freeName? free)
    refine ⟨folder, name, (Except.ok.inj found).symm, ?_⟩
    simpa using unnamed

theorem exists_name_of_moveTarget (moved : tree.moveTarget path = .ok target) :
    ∃ folder name, target = folder ++ [name] ∧ name ∈ Path.parts path := by
  rw [moveTarget, bind_eq_ok_iff] at moved
  obtain ⟨_, _, moved⟩ := moved
  split at moved
  · contradiction
  rename_i above name found
  simp only [bind_eq_ok_iff, ite_error_eq_ok_iff] at moved
  obtain ⟨folder, _, _, _, _, _, _, moved⟩ := moved
  split at moved
  · contradiction
  · exact ⟨folder, name, (Except.ok.inj moved).symm, Path.mem_parts_of_lastName? found⟩

/-- The temporary file does not stand where it is moved to. -/
theorem temporary_ne_target (found : tree.temporaryLocation path = .ok temporary)
    (moved : after.moveTarget path = .ok target) : temporary ≠ target := by
  obtain ⟨folder, name, rfl, unnamed⟩ := exists_name_of_temporaryLocation found
  obtain ⟨_, last, rfl, named⟩ := exists_name_of_moveTarget moved
  intro same
  obtain ⟨_, names_eq⟩ := List.append_inj' same rfl
  obtain rfl : name = last := by simpa using names_eq
  exact unnamed named

end Temporary

/-- A file is replaced exactly if its path accepts one and no step is refused. -/
theorem replaceFile_eq_ok_iff (plain : Path.IsPlain tree.current) :
    (tree.replaceFile refusals path contents).2 = .ok () ↔
      tree.Accepts path ∧ ∀ step, refusals step = none := by
  constructor
  · intro replaced
    simp only [replaceFile, put_put] at replaced
    split at replaced
    · contradiction
    · contradiction
    rename_i temporary found created
    split at replaced
    · contradiction
    rename_i filled
    split at replaced
    · contradiction
    · contradiction
    rename_i target moved unrefused
    have unused := not_mem_keys_of_temporaryLocation plain found
    rw [moveTarget_put_file_iff (ne_nil_of_temporaryLocation found) unused] at moved
    refine ⟨⟨⟨temporary, found⟩, target, moved⟩, ?_⟩
    rintro (_ | _ | _)
    · exact created
    · exact filled
    · exact unrefused
  · rintro ⟨⟨⟨temporary, found⟩, target, moved⟩, unrefused⟩
    have unused := not_mem_keys_of_temporaryLocation plain found
    have moves : (tree.put temporary (.file contents)).moveTarget path = .ok target :=
      (moveTarget_put_file_iff (ne_nil_of_temporaryLocation found) unused).mpr moved
    simp only [replaceFile, put_put, found, unrefused, moves]

/-- After a replacement the temporary file is gone, whether it succeeded or failed. -/
theorem node?_temporary_replaceFile (plain : Path.IsPlain tree.current)
    (found : tree.temporaryLocation path = .ok temporary) :
    (tree.replaceFile refusals path contents).1.node? temporary = none := by
  have free := node?_eq_none_of_not_mem_keys (ne_nil_of_temporaryLocation found)
    (not_mem_keys_of_temporaryLocation plain found)
  rcases replaced : tree.replaceFile refusals path contents with ⟨after, fault | _⟩
  · rw [eq_of_replaceFile_error plain replaced]
    exact free
  · obtain ⟨⟨_, target, moved⟩, _⟩ := (replaceFile_eq_ok_iff plain).mp (congrArg Prod.snd replaced)
    obtain ⟨rfl, below, _⟩ := eq_put_of_replaceFile plain replaced
    have target_eq := eq_normalize_of_locate (locate_of_moveTarget moved).1
    rw [node?_put below, if_neg (target_eq ▸ temporary_ne_target found moved)]
    exact free

end Tree

end Determinizer.File
