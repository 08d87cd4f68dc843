import Determinizer.File.Creation
import Determinizer.Proofs.File.Replacement

/-! # What is left alone in a tree

Making folders changes no file, and writing to a file changes no other one. A replacement either
leaves the tree as it was or puts the new contents where the path leads: the temporary file takes an
unused location and is gone at the end.
-/

namespace Determinizer.File

namespace Path

variable {location current names : Location}

/-- Every name leads down: none stays at a folder and none goes up. -/
def IsPlain (location : Location) : Prop := ∀ name ∈ location, isIdle name = false ∧ name ≠ ".."

theorem IsPlain.step (plain : IsPlain location) (part : String) : IsPlain (step location part) := by
  rw [Path.step]
  split
  · exact plain
  · rename_i active
    split
    · exact fun name member => plain name (List.dropLast_subset _ member)
    · rename_i down
      refine List.forall_mem_append.mpr ⟨plain, ?_⟩
      rintro name (_ | ⟨_, ⟨⟩⟩)
      exact ⟨by simpa using active, by simpa using down⟩

theorem IsPlain.foldl_step (plain : IsPlain location) (parts : List String) :
    IsPlain (parts.foldl Path.step location) := by
  induction parts generalizing location with
  | nil => exact plain
  | cons part rest ih => exact ih (plain.step part)

/-- A path that starts from a plain location spells one. -/
theorem IsPlain.normalize (plain : IsPlain current) (path : String) :
    IsPlain (normalize current path) := by
  apply IsPlain.foldl_step
  rw [start]
  split
  · exact fun name member => absurd member List.not_mem_nil
  · exact plain

/-- Names that all lead down spell the location below. -/
theorem IsPlain.foldl_step_eq (plain : IsPlain names) (location : Location) :
    names.foldl Path.step location = location ++ names := by
  induction names generalizing location with
  | nil => simp
  | cons name rest ih =>
    obtain ⟨⟨active, down⟩, later⟩ := List.forall_mem_cons.mp plain
    rw [List.foldl_cons, step_eq_append active down, ih later, List.append_assoc,
      List.singleton_append]

end Path

namespace Tree

variable {tree after grown : Tree} {location target temporary : Location} {node : Node}
  {parts : List String} {path : String} {contents : ByteArray} {fault : Fault}
  {apart more : List Location}

section Locations

/-- Following parts ends at the location that they spell. -/
theorem eq_foldl_of_follow (followed : tree.follow location parts = .ok target) :
    target = parts.foldl Path.step location := by
  induction parts generalizing location with
  | nil => exact (Except.ok.inj followed).symm
  | cons part rest ih =>
    obtain ⟨_, _, later⟩ := follow_cons_eq_ok_iff.mp followed
    exact ih later

theorem eq_normalize_of_locate (located : tree.locate path = .ok target) :
    target = Path.normalize tree.current path := by
  rw [locate, bind_eq_ok_iff] at located
  obtain ⟨_, _, followed⟩ := located
  exact eq_foldl_of_follow followed

/-- A plain location is found at itself. -/
theorem eq_of_follow_isPlain (plain : Path.IsPlain location)
    (followed : tree.follow [] location = .ok target) : target = location :=
  (eq_foldl_of_follow followed).trans (plain.foldl_step_eq [])

theorem read_eq_ok_iff : tree.read path = .ok contents ↔
    ∃ location, tree.locate path = .ok location ∧ tree.node? location = some (.file contents) := by
  refine ⟨fun readable => ?_, fun ⟨_, located, stands⟩ => read_of_locate located stands⟩
  simp only [read, stat, bind_eq_ok_iff] at readable
  obtain ⟨node, ⟨location, located, found⟩, readable⟩ := readable
  split at found
  · rename_i stands
    obtain rfl := Except.ok.inj found
    split at readable
    · obtain rfl := Except.ok.inj readable
      exact ⟨location, located, stands⟩
    · contradiction
  · contradiction

end Locations

section Changes

/-- The files at some locations apart, both trees have the same files; all folders are kept. -/
structure ChangesOnly (apart : List Location) (tree after : Tree) : Prop where
  current_eq : after.current = tree.current
  folders : tree.KeepsFolders after
  files : ∀ location, location ∉ apart → ∀ contents,
    after.node? location = some (.file contents) ↔ tree.node? location = some (.file contents)

namespace ChangesOnly

theorem refl (apart : List Location) (tree : Tree) : ChangesOnly apart tree tree :=
  ⟨rfl, fun _ => id, fun _ _ _ => Iff.rfl⟩

theorem trans {last : Tree} (earlier : ChangesOnly apart tree after)
    (later : ChangesOnly apart after last) : ChangesOnly apart tree last where
  current_eq := later.current_eq.trans earlier.current_eq
  folders := fun location isFolder => later.folders location (earlier.folders location isFolder)
  files := fun location elsewhere contents =>
    (later.files location elsewhere contents).trans (earlier.files location elsewhere contents)

theorem mono (changes : ChangesOnly apart tree after) (wider : apart ⊆ more) :
    ChangesOnly more tree after :=
  ⟨changes.current_eq, changes.folders,
    fun location elsewhere => changes.files location fun inside => elsewhere (wider inside)⟩

/-- A file that is left alone is read as before. -/
theorem read_eq_ok (changes : ChangesOnly apart tree after)
    (elsewhere : Path.normalize tree.current path ∉ apart)
    (readable : tree.read path = .ok contents) : after.read path = .ok contents := by
  obtain ⟨location, located, stands⟩ := read_eq_ok_iff.mp readable
  obtain rfl := eq_normalize_of_locate located
  exact read_of_locate (locate_of_keepsFolders changes.folders changes.current_eq located)
    ((changes.files _ elsewhere contents).mpr stands)

/-- A file that is read and was left alone stood there before. -/
theorem node?_of_read (changes : ChangesOnly apart tree after)
    (elsewhere : Path.normalize tree.current path ∉ apart)
    (readable : after.read path = .ok contents) :
    tree.node? (Path.normalize tree.current path) = some (.file contents) := by
  obtain ⟨location, located, stands⟩ := read_eq_ok_iff.mp readable
  obtain rfl := eq_normalize_of_locate located
  rw [changes.current_eq] at stands
  exact (changes.files _ elsewhere contents).mp stands

end ChangesOnly

theorem changesOnly_put_folder (below : location ≠ []) (free : tree.node? location = none) :
    ChangesOnly [] tree (tree.put location .folder) := by
  refine ⟨rfl, fun other isFolder => ?_, fun other _ contents => ?_⟩
  · rw [node?_put below, isFolder, ite_self]
  · rw [node?_put below]
    split
    · rename_i same
      simp [same, free]
    · rfl

theorem changesOnly_put_file (below : location ≠ []) (noFolder : tree.node? location ≠ some .folder)
    (contents : ByteArray) : ChangesOnly [location] tree (tree.put location (.file contents)) := by
  refine ⟨rfl, fun other isFolder => ?_, fun other elsewhere contents => ?_⟩
  · have apart : other ≠ location := fun same => noFolder (same ▸ isFolder)
    rw [node?_put below, if_neg apart, isFolder]
  · rw [node?_put below, if_neg (by simpa using elsewhere)]

end Changes

section Contents

theorem ne_nil_of_noFolder (noFolder : tree.node? location ≠ some .folder) : location ≠ [] := by
  rintro rfl
  exact noFolder rfl

theorem ne_nil_of_file (stands : tree.node? location = some (.file contents)) : location ≠ [] := by
  have noFolder : tree.node? location ≠ some .folder := by simp [stands]
  exact ne_nil_of_noFolder noFolder

theorem contentsAt_of_node? (stands : tree.node? location = some (.file contents)) :
    tree.contentsAt location = contents := by
  rw [contentsAt, stands]

theorem contentsAt_of_none (free : tree.node? location = none) :
    tree.contentsAt location = ByteArray.empty := by
  rw [contentsAt, free]

theorem contentsAt_put_file (below : location ≠ []) (contents : ByteArray) (other : Location) :
    (tree.put location (.file contents)).contentsAt other =
      if other = location then contents else tree.contentsAt other := by
  rw [contentsAt, node?_put below]
  by_cases same : other = location
  · rw [if_pos same, if_pos same]
  · rw [if_neg same, if_neg same]
    rfl

/-- A file stays a file where all that has changed is files. -/
theorem ChangesOnly.exists_file (changes : ChangesOnly apart tree after)
    (files : ∀ location ∈ apart, ∃ contents, after.node? location = some (.file contents))
    (stands : tree.node? location = some (.file contents)) :
    ∃ contents, after.node? location = some (.file contents) := by
  by_cases changed : location ∈ apart
  · exact files location changed
  · exact ⟨contents, (changes.files location changed contents).mpr stands⟩

/-- Where no file has changed there are the same contents. -/
theorem ChangesOnly.contentsAt_eq (changes : ChangesOnly apart tree after)
    (elsewhere : location ∉ apart) : after.contentsAt location = tree.contentsAt location := by
  have same := changes.files location elsewhere
  unfold contentsAt
  split
  · rename_i contents stands
    rw [(same contents).mp stands]
  · rename_i noFile
    split
    · rename_i contents stands
      exact absurd ((same contents).mpr stands) (noFile contents)
    · rfl

end Contents

section Folders

theorem changesOnly_of_makeFolder (made : tree.makeFolder path = .ok grown) :
    ChangesOnly [] tree grown := by
  rw [makeFolder, bind_eq_ok_iff] at made
  obtain ⟨_, _, made⟩ := made
  split at made
  · contradiction
  simp only [bind_eq_ok_iff, ite_error_eq_ok_iff] at made
  obtain ⟨folder, _, _, _, _, _, made⟩ := made
  split at made
  · contradiction
  · rename_i free
    obtain rfl := Except.ok.inj made
    exact changesOnly_put_folder (by simp) free

theorem changesOnly_ensureFolder (tree : Tree) (path : String) :
    ChangesOnly [] tree (tree.ensureFolder path).1 := by
  rw [ensureFolder]
  split
  · rename_i made
    exact changesOnly_of_makeFolder made
  · exact .refl _ _

/-- Making the folders of a path changes no file, also where it fails on the way. -/
theorem changesOnly_ensureFolders (tree : Tree) (limit : Nat) (paths : List String) :
    ChangesOnly [] tree (tree.ensureFolders limit paths).1 := by
  fun_induction ensureFolders tree limit paths with
  | case1 => exact .refl _ _
  | case2 => exact .refl _ _
  | case3 more path above _ grown made ih =>
    rw [made] at ih
    exact ih.trans (changesOnly_ensureFolder grown path)
  | case4 more path above _ failed ih => exact ih
  | case5 more path above => exact changesOnly_ensureFolder tree path

end Folders

section Replacement

theorem not_taken_of_freeName? {taken : String → Bool} {attempt attempts : Nat} {name : String}
    (found : freeName? taken attempt attempts = some name) : taken name = false := by
  fun_induction freeName? taken attempt attempts with
  | case1 => contradiction
  | case2 attempt more used ih => exact ih found
  | case3 attempt more unused =>
    obtain rfl := Option.some.inj found
    simpa using unused

/-- The temporary file takes a location at which nothing is recorded. -/
theorem not_mem_keys_of_temporaryLocation (plain : Path.IsPlain tree.current)
    (found : tree.temporaryLocation path = .ok temporary) : temporary ∉ tree.nodes.keys := by
  have folderPlain : Path.IsPlain (Path.normalize tree.current path).dropLast :=
    fun name member => plain.normalize path name (List.dropLast_subset _ member)
  rw [temporaryLocation] at found
  split at found
  · contradiction
  · rename_i name free
    simp only [bind_eq_ok_iff] at found
    obtain ⟨_, _, folder, followed, _, _, found⟩ := found
    obtain rfl := eq_of_follow_isPlain folderPlain followed
    obtain rfl := Except.ok.inj found
    simpa using (Bool.or_eq_false_iff.mp (not_taken_of_freeName? free)).2

theorem node?_eq_none_of_not_mem_keys (below : location ≠ []) (unused : location ∉ tree.nodes.keys) :
    tree.node? location = none := by
  rw [node?, if_neg (by simpa using below), Table.get?_eq_none_iff]
  exact unused

theorem remove_put (unused : temporary ∉ tree.nodes.keys) (node : Node) :
    (tree.put temporary node).remove temporary = tree := by
  rw [put, remove, Table.erase_insert_of_not_mem unused]

theorem put_put (tree : Tree) (location : Location) (old new : Node) :
    (tree.put location old).put location new = tree.put location new := by
  rw [put, put, put, Table.insert_insert]

/-- A replacement that fails leaves the tree as it was. -/
theorem eq_of_replaceFile_error {refusals : Refusals} {refused : ReplacementFault}
    (plain : Path.IsPlain tree.current)
    (failed : tree.replaceFile refusals path contents = (after, .error refused)) : after = tree := by
  simp only [replaceFile, put_put] at failed
  split at failed
  · exact (Prod.mk.inj failed).1.symm
  · exact (Prod.mk.inj failed).1.symm
  rename_i temporary found _
  have unused := not_mem_keys_of_temporaryLocation plain found
  simp only [remove_put unused] at failed
  split at failed
  · exact (Prod.mk.inj failed).1.symm
  split at failed
  · exact (Prod.mk.inj failed).1.symm
  · exact (Prod.mk.inj failed).1.symm
  · simp at failed

/-- A replacement that succeeds puts the contents where the path leads, and nothing else. -/
theorem eq_put_of_replaceFile {refusals : Refusals} (plain : Path.IsPlain tree.current)
    (replaced : tree.replaceFile refusals path contents = (after, .ok ())) :
    after = tree.put (Path.normalize tree.current path) (.file contents) ∧
      Path.normalize tree.current path ≠ [] ∧
      tree.node? (Path.normalize tree.current path) ≠ some .folder := by
  simp only [replaceFile, put_put] at replaced
  split at replaced
  · simp at replaced
  · simp at replaced
  rename_i temporary found _
  have unused := not_mem_keys_of_temporaryLocation plain found
  have apart := ne_nil_of_temporaryLocation found
  simp only [remove_put unused] at replaced
  split at replaced
  · simp at replaced
  split at replaced
  · simp at replaced
  · simp at replaced
  rename_i target moved _
  obtain ⟨leads, below, free⟩ := locate_of_moveTarget moved
  obtain rfl := eq_normalize_of_locate leads
  refine ⟨(Prod.mk.inj replaced).1.symm, below, fun isFolder => free ?_⟩
  have elsewhere : Path.normalize tree.current path ≠ temporary := by
    intro same
    rw [same, node?_eq_none_of_not_mem_keys apart unused] at isFolder
    contradiction
  exact (node?_put apart _ _).trans ((if_neg elsewhere).trans isFolder)

/-- A replacement changes no file but the one at its path, and leaves no other behind. -/
theorem changesOnly_of_replaceFile {refusals : Refusals} (plain : Path.IsPlain tree.current)
    (replaced : tree.replaceFile refusals path contents = (after, .ok ())) :
    ChangesOnly [Path.normalize tree.current path] tree after := by
  obtain ⟨rfl, below, noFolder⟩ := eq_put_of_replaceFile plain replaced
  exact changesOnly_put_file below noFolder contents

/-- Whether a file can be moved to a path does not depend on what it holds. -/
theorem moveTarget_put_file (below : temporary ≠ []) (old new : ByteArray) :
    (tree.put temporary (.file old)).moveTarget path =
      (tree.put temporary (.file new)).moveTarget path := by
  have requires : ∀ location, (tree.put temporary (.file old)).requireFolder location =
      (tree.put temporary (.file new)).requireFolder location := by
    intro location
    rw [requireFolder, requireFolder, node?_put below, node?_put below]
    by_cases same : location = temporary <;> simp [same]
  have follows : ∀ parts location, (tree.put temporary (.file old)).follow location parts =
      (tree.put temporary (.file new)).follow location parts := by
    intro parts
    induction parts with
    | nil => exact fun _ => rfl
    | cons part rest ih =>
      intro location
      rw [follow, follow, requires]
      simp only [ih]
  rw [moveTarget, moveTarget]
  refine bind_congr fun _ => ?_
  cases Path.lastName? path with
  | none => rfl
  | some last =>
    simp only [follows, requires]
    refine bind_congr fun folder => bind_congr fun _ => ?_
    rw [node?_put below, node?_put below]
    by_cases same : folder ++ [last.2] = temporary
    · rw [if_pos same, if_pos same]
    · rw [if_neg same, if_neg same]

/-- Whether a replacement succeeds does not depend on the contents. -/
theorem replaceFile_result_eq (refusals : Refusals) (tree : Tree) (path : String)
    (old new : ByteArray) : (tree.replaceFile refusals path old).2 =
      (tree.replaceFile refusals path new).2 := by
  simp only [replaceFile, put_put]
  split
  · rfl
  · rfl
  rename_i temporary found _
  split
  · rfl
  rw [moveTarget_put_file (ne_nil_of_temporaryLocation found) old new]
  split <;> rfl

end Replacement

end Tree

end Determinizer.File
