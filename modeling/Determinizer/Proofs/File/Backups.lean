import Determinizer.File.Backups
import Determinizer.Proofs.File.Preservation

/-! # What backing up a file changes

To back a file up changes nothing but the file and what stands at the places of its backups. A folder
there is moved with all that is in it, so all that lies below these places may change too, and the
current folder moves if it is one of them. After success the first backup is the file as it was.
-/

namespace Determinizer.File

namespace Path

variable {file source target location : Location} {count number : Nat} {name : String}

/-- A location is that of one of so many backups of a file, or lies below one. -/
def InBackup (file : Location) (count : Nat) (location : Location) : Prop :=
  ∃ number, 0 < number ∧ number ≤ count ∧ backup file number <+: location

theorem InBackup.mono {more : Nat} (inside : InBackup file count location) (fewer : count ≤ more) :
    InBackup file more location := by
  obtain ⟨number, positive, within, below⟩ := inside
  exact ⟨number, positive, within.trans fewer, below⟩

theorem inBackup_succ (below : backup file (count + 1) <+: location) :
    InBackup file (count + 1) location :=
  ⟨count + 1, Nat.succ_pos count, le_rfl, below⟩

theorem backup_ne_nil (below : file ≠ []) (number : Nat) : backup file number ≠ [] := by
  cases number with
  | zero => exact below
  | succ number => simp [backup]

theorem lastName_backup_succ (file : Location) (number : Nat) :
    (backup file (number + 1)).getLastD "" =
      file.getLastD "" ++ "." ++ toString (number + 1) := by
  rw [backup, List.getLastD_eq_getLast?, List.getLast?_concat, Option.getD_some]

/-- A file does not lie at or below one of its backups, which stand beside it under longer names. -/
theorem not_inBackup_self (below : file ≠ []) (count : Nat) : ¬ InBackup file count file := by
  rintro ⟨_ | number, positive, _, inside⟩
  · contradiction
  have sameLength : (backup file (number + 1)).length = file.length := by
    rw [backup, List.length_append, List.length_dropLast, List.length_singleton]
    exact Nat.sub_add_cancel (List.length_pos_iff.mpr below)
  have same : backup file (number + 1) = file := inside.eq_of_length sameLength
  have longer := congrArg String.length (lastName_backup_succ file number)
  rw [same, String.length_append, String.length_append] at longer
  have dot : ".".length = 1 := rfl
  omega

/-- A name that leads down still does so with an extension. -/
theorem leadsDown_append (down : isIdle name = false ∧ name ≠ "..") (extension : String) :
    isIdle (name ++ "." ++ extension) = false ∧ name ++ "." ++ extension ≠ ".." := by
  have active := down.1
  rw [isIdle, Bool.or_eq_false_iff, beq_eq_false_iff_ne, beq_eq_false_iff_ne] at active ⊢
  have filled : name.toList ≠ [] := by simpa using active.1
  have noDot : name.toList ≠ ['.'] := fun same => active.2 (String.toList_inj.mp same)
  have chars : (name ++ "." ++ extension).toList = name.toList ++ '.' :: extension.toList := by
    rw [String.toList_append, String.toList_append, List.append_assoc]
    rfl
  have longer : (name ++ "." ++ extension).toList ≠ [] ∧ (name ++ "." ++ extension).toList ≠ ['.'] ∧
      (name ++ "." ++ extension).toList ≠ ['.', '.'] := by
    rw [chars]
    generalize name.toList = letters at filled noDot
    rcases letters with _ | ⟨first, _ | ⟨second, rest⟩⟩ <;> simp_all
  exact ⟨⟨fun same => longer.1 (congrArg String.toList same),
    fun same => longer.2.1 (congrArg String.toList same)⟩,
    fun same => longer.2.2 (congrArg String.toList same)⟩

theorem IsPlain.backup (plain : IsPlain file) (below : file ≠ []) (number : Nat) :
    IsPlain (backup file number) := by
  cases number with
  | zero => exact plain
  | succ number =>
    refine List.forall_mem_append.mpr
      ⟨fun name member => plain name (List.dropLast_subset _ member), ?_⟩
    rintro name (_ | ⟨_, ⟨⟩⟩)
    have last : file.getLastD "" ∈ file := by
      rw [List.getLastD_eq_getLast?, List.getLast?_eq_some_getLast below, Option.getD_some]
      exact List.getLast_mem below
    exact leadsDown_append (plain _ last) _

theorem carry_of_not_isPrefix (outside : ¬ source <+: location) :
    carry source target location = location :=
  if_neg fun inside => outside (List.isPrefixOf_iff_prefix.mp inside)

theorem isPrefix_carry (inside : source <+: location) : target <+: carry source target location := by
  rw [carry, if_pos (List.isPrefixOf_iff_prefix.mpr inside)]
  exact List.prefix_append ..

theorem IsPlain.carry (plain : IsPlain location) (targetPlain : IsPlain target) :
    IsPlain (carry source target location) := by
  rw [Path.carry]
  split
  · exact List.forall_mem_append.mpr
      ⟨targetPlain, fun name member => plain name (List.drop_subset _ _ member)⟩
  · exact plain

end Path

namespace Tree

variable {tree after last cleared : Tree} {location source target file : Location}
  {contents : ByteArray} {node : Node} {region wider : Location → Prop} {count : Nat}

section ChangesWithin

/-- Outside a region both trees have the same files, all folders are kept, and the current folder is
the same. -/
structure ChangesWithin (region : Location → Prop) (tree after : Tree) : Prop where
  current_eq : ¬ region tree.current → after.current = tree.current
  folders : ∀ location, ¬ region location → tree.node? location = some .folder →
    after.node? location = some .folder
  files : ∀ location, ¬ region location → ∀ contents,
    after.node? location = some (.file contents) ↔ tree.node? location = some (.file contents)

namespace ChangesWithin

theorem refl (region : Location → Prop) (tree : Tree) : ChangesWithin region tree tree :=
  ⟨fun _ => rfl, fun _ _ => id, fun _ _ _ => Iff.rfl⟩

theorem trans (earlier : ChangesWithin region tree after) (later : ChangesWithin region after last) :
    ChangesWithin region tree last where
  current_eq := by
    intro outside
    have same := earlier.current_eq outside
    exact (later.current_eq (same ▸ outside)).trans same
  folders := fun location outside isFolder =>
    later.folders location outside (earlier.folders location outside isFolder)
  files := fun location outside contents =>
    (later.files location outside contents).trans (earlier.files location outside contents)

theorem mono (changes : ChangesWithin region tree after)
    (within : ∀ location, region location → wider location) : ChangesWithin wider tree after :=
  ⟨fun outside => changes.current_eq fun inside => outside (within _ inside),
    fun location outside => changes.folders location fun inside => outside (within _ inside),
    fun location outside => changes.files location fun inside => outside (within _ inside)⟩

/-- What looks the same outside a region has changed within. -/
theorem of_node?_eq (current_eq : ¬ region tree.current → after.current = tree.current)
    (same : ∀ location, ¬ region location → after.node? location = tree.node? location) :
    ChangesWithin region tree after :=
  ⟨current_eq, fun location outside => (same location outside).trans,
    fun location outside contents => by rw [same location outside]⟩

end ChangesWithin

/-- Where only the files at some locations change, all changes lie within a region of these. -/
theorem ChangesOnly.within {apart : List Location} (changes : ChangesOnly apart tree after)
    (inside : ∀ location ∈ apart, region location) : ChangesWithin region tree after :=
  ⟨fun _ => changes.current_eq, fun location _ => changes.folders location,
    fun location outside => changes.files location fun member => outside (inside location member)⟩

end ChangesWithin

section Shift

theorem node?_clear (below : target ≠ []) (clears : tree.clear target = .ok cleared)
    (other : Location) :
    cleared.node? other = if other = target then none else tree.node? other := by
  rw [clear] at clears
  split at clears
  · rename_i free
    obtain rfl := Except.ok.inj clears
    split
    · rename_i same
      rw [same, free]
    · rfl
  · obtain rfl := Except.ok.inj clears
    exact node?_remove below other
  · contradiction

theorem current_clear (clears : tree.clear target = .ok cleared) :
    cleared.current = tree.current := by
  rw [clear] at clears
  split at clears
  · obtain rfl := Except.ok.inj clears
    rfl
  · obtain rfl := Except.ok.inj clears
    rfl
  · contradiction

/-- Moving a folder changes nothing but what lies at or below the places it is moved from and to. -/
theorem node?_moveFolder (sourceBelow : source ≠ []) (targetBelow : target ≠ [])
    (outside : ¬ source <+: location) (aside : ¬ target <+: location) :
    (tree.moveFolder source target).node? location = tree.node? location := by
  have general : ∀ (entries : List (Location × Node)) (moved : Tree),
      (∀ entry ∈ entries, source <+: entry.1) →
      (entries.foldl (fun tree entry =>
        (tree.remove entry.1).put (Path.carry source target entry.1) entry.2) moved).node? location =
        moved.node? location := by
    intro entries
    induction entries with
    | nil => exact fun _ _ => rfl
    | cons entry rest ih =>
      intro moved inside
      obtain ⟨here, later⟩ := List.forall_mem_cons.mp inside
      have entryBelow : entry.1 ≠ [] := by
        intro empty
        exact sourceBelow (List.prefix_nil.mp (empty ▸ here))
      have carried : target <+: Path.carry source target entry.1 := Path.isPrefix_carry here
      have carriedBelow : Path.carry source target entry.1 ≠ [] := by
        intro empty
        exact targetBelow (List.prefix_nil.mp (empty ▸ carried))
      have notCarried : location ≠ Path.carry source target entry.1 :=
        fun same => aside (same ▸ carried)
      have notEntry : location ≠ entry.1 := fun same => outside (same ▸ here)
      rw [List.foldl_cons, ih _ later, node?_put carriedBelow, node?_remove entryBelow,
        if_neg notCarried, if_neg notEntry]
  refine general _ tree fun entry member => ?_
  exact List.isPrefixOf_iff_prefix.mp (List.mem_filter.mp member).2

/-- To shift does nothing, moves a file, or moves a folder. -/
theorem shift_cases (shifted : tree.shift source target = .ok after) :
    (tree.found? source = none ∧ after = tree) ∨
      ∃ node cleared, tree.found? source = some node ∧ tree.clear target = .ok cleared ∧
        ((∃ contents, node = .file contents ∧
            after = (cleared.remove source).put target (.file contents)) ∨
          node = .folder ∧ after = cleared.moveFolder source target) := by
  rw [shift] at shifted
  split at shifted
  · rename_i gone
    exact .inl ⟨gone, (Except.ok.inj shifted).symm⟩
  · rename_i node found
    simp only [bind_eq_ok_iff] at shifted
    obtain ⟨_, _, cleared, clears, shifted⟩ := shifted
    refine .inr ⟨node, cleared, found, clears, ?_⟩
    cases node with
    | file contents => exact .inl ⟨contents, rfl, (Except.ok.inj shifted).symm⟩
    | folder => exact .inr ⟨rfl, (Except.ok.inj shifted).symm⟩

theorem node?_of_found? (found : tree.found? location = some node) :
    tree.node? location = some node := by
  rw [found?] at found
  split at found
  · exact found
  · contradiction

/-- The places that shifting may change: where a folder stands, also all that is in it. -/
def ShiftRegion (tree : Tree) (source target location : Location) : Prop :=
  location = source ∨ (tree.node? source = some .folder ∧ source <+: location) ∨
    target <+: location

theorem node?_of_shift (sourceBelow : source ≠ []) (targetBelow : target ≠ [])
    (shifted : tree.shift source target = .ok after)
    (outside : ¬ tree.ShiftRegion source target location) :
    after.node? location = tree.node? location := by
  obtain ⟨notSource, notInside, notTarget⟩ := by simpa only [ShiftRegion, not_or] using outside
  have ne : location ≠ target := fun same => notTarget (same ▸ List.prefix_rfl)
  rcases shift_cases shifted with ⟨_, rfl⟩ | ⟨node, cleared, found, clears, moved⟩
  · rfl
  have kept : cleared.node? location = tree.node? location := by
    rw [node?_clear targetBelow clears, if_neg ne]
  rcases moved with ⟨contents, _, rfl⟩ | ⟨rfl, rfl⟩
  · rw [node?_put targetBelow, if_neg ne, node?_remove sourceBelow, if_neg notSource, kept]
  · have apart : ¬ source <+: location :=
      fun inside => notInside ⟨node?_of_found? found, inside⟩
    rw [node?_moveFolder sourceBelow targetBelow apart notTarget, kept]

/-- A file that is shifted stands at its new place and no longer at the old one. -/
theorem node?_of_shift_file (sourceBelow : source ≠ []) (targetBelow : target ≠ [])
    (apart : source ≠ target) (found : tree.found? source = some (.file contents))
    (shifted : tree.shift source target = .ok after) :
    after.node? target = some (.file contents) ∧ after.node? source = none := by
  rcases shift_cases shifted with ⟨unfound, _⟩ | ⟨_, cleared, again, _, moved⟩
  · simp [found] at unfound
  obtain rfl := Option.some.inj (found.symm.trans again)
  rcases moved with ⟨_, ⟨⟩, rfl⟩ | ⟨contrary, _⟩
  · refine ⟨(node?_put targetBelow _ _).trans (if_pos rfl), ?_⟩
    rw [node?_put targetBelow, if_neg apart]
    exact (node?_remove sourceBelow source).trans (if_pos rfl)
  · contradiction

theorem current_of_shift (shifted : tree.shift source target = .ok after)
    (outside : ¬ tree.ShiftRegion source target tree.current) : after.current = tree.current := by
  rcases shift_cases shifted with ⟨_, rfl⟩ | ⟨_, cleared, found, clears, ⟨_, _, rfl⟩ | ⟨rfl, rfl⟩⟩
  · rfl
  · have current_eq : cleared.current = tree.current := current_clear clears
    exact current_eq
  · have apart : ¬ source <+: cleared.current := by
      rw [current_clear clears]
      exact fun inside => outside (.inr (.inl ⟨node?_of_found? found, inside⟩))
    exact (Path.carry_of_not_isPrefix apart).trans (current_clear clears)

theorem isPlain_current_of_shift (targetPlain : Path.IsPlain target)
    (plain : Path.IsPlain tree.current) (shifted : tree.shift source target = .ok after) :
    Path.IsPlain after.current := by
  rcases shift_cases shifted with ⟨_, rfl⟩ | ⟨_, cleared, _, clears, ⟨_, _, rfl⟩ | ⟨_, rfl⟩⟩
  · exact plain
  · have clearedPlain : Path.IsPlain cleared.current := (current_clear clears).symm ▸ plain
    exact clearedPlain
  · exact Path.IsPlain.carry ((current_clear clears).symm ▸ plain) targetPlain

end Shift

section BackUp

/-- What backing a file up may change. -/
def BackupRegion (file : Location) (count : Nat) (location : Location) : Prop :=
  location = file ∨ Path.InBackup file count location

theorem backUp_succ_of_ok (shifted :
      tree.shift (Path.backup file count) (Path.backup file (count + 1)) = .ok after) :
    tree.backUp file (count + 1) = after.backUp file count := by
  rw [backUp, shifted]

theorem backUp_succ_of_error {fault : Fault} (failed :
      tree.shift (Path.backup file count) (Path.backup file (count + 1)) = .error fault) :
    tree.backUp file (count + 1) = (tree, .error fault) := by
  rw [backUp, failed]

/-- A step of backing up touches only what backing up may change. -/
theorem backupRegion_of_shiftRegion (noFolder : tree.node? file ≠ some .folder)
    (touched : tree.ShiftRegion (Path.backup file count) (Path.backup file (count + 1)) location) :
    BackupRegion file (count + 1) location := by
  rcases touched with here | ⟨isFolder, inside⟩ | inside
  · cases count with
    | zero => exact .inl here
    | succ count =>
      exact .inr (Path.InBackup.mono (Path.inBackup_succ (here ▸ List.prefix_rfl)) (Nat.le_succ _))
  · cases count with
    | zero => exact absurd isFolder noFolder
    | succ count => exact .inr (Path.InBackup.mono (Path.inBackup_succ inside) (Nat.le_succ _))
  · exact .inr (Path.inBackup_succ inside)

theorem ne_backup (below : file ≠ []) (number : Nat) : file ≠ Path.backup file (number + 1) := by
  intro same
  have inside : Path.backup file (number + 1) <+: file := ⟨[], (List.append_nil _).trans same.symm⟩
  exact Path.not_inBackup_self below (number + 1) (Path.inBackup_succ inside)

/-- The steps above the first one leave the file itself alone, and that one moves it away if it is
found. -/
theorem file_of_shift (below : file ≠ []) (noFolder : tree.node? file ≠ some .folder)
    (shifted : tree.shift (Path.backup file count) (Path.backup file (count + 1)) = .ok after) :
    after.node? file = tree.node? file ∨ (count = 0 ∧ after.node? file = none) := by
  have notBackup : ∀ number, ¬ Path.backup file (number + 1) <+: file :=
    fun number inside => Path.not_inBackup_self below _ (Path.inBackup_succ inside)
  cases count with
  | zero =>
    rcases shift_cases shifted with ⟨_, rfl⟩ | ⟨_, _, found, _, ⟨_, rfl, _⟩ | ⟨rfl, _⟩⟩
    · exact .inl rfl
    · exact .inr ⟨rfl, (node?_of_shift_file below (Path.backup_ne_nil below 1) (ne_backup below 0)
        found shifted).2⟩
    · exact absurd (node?_of_found? found) noFolder
  | succ count =>
    refine .inl (node?_of_shift (Path.backup_ne_nil below _) (Path.backup_ne_nil below _) shifted ?_)
    rintro (here | ⟨_, inside⟩ | inside)
    · exact ne_backup below count here
    · exact notBackup count inside
    · exact notBackup (count + 1) inside

/-- What backing a file up does, so far as it does not depend on what stands at the backups. -/
structure BacksUp (file : Location) (count : Nat) (tree after : Tree) (result : Except Fault Unit) :
    Prop where
  changes : ChangesWithin (BackupRegion file count) tree after
  plain : Path.IsPlain file → Path.IsPlain tree.current → Path.IsPlain after.current
  /-- The file stays where it is, or success has moved it away. -/
  file_cases : after.node? file = tree.node? file ∨ (result = .ok () ∧ after.node? file = none)

theorem backsUp_refl (file : Location) (count : Nat) (tree : Tree) (result : Except Fault Unit) :
    BacksUp file count tree tree result :=
  ⟨.refl _ _, fun _ plain => plain, .inl rfl⟩

theorem backsUp_backUp (below : file ≠ []) (noFolder : tree.node? file ≠ some .folder)
    (count : Nat) :
    BacksUp file count tree (tree.backUp file count).1 (tree.backUp file count).2 := by
  induction count generalizing tree with
  | zero => exact backsUp_refl ..
  | succ count ih =>
    cases shifted : tree.shift (Path.backup file count) (Path.backup file (count + 1)) with
    | error fault =>
      rw [backUp_succ_of_error shifted]
      exact backsUp_refl ..
    | ok next =>
      rw [backUp_succ_of_ok shifted]
      have touched : ∀ location, ¬ BackupRegion file (count + 1) location →
          ¬ tree.ShiftRegion (Path.backup file count) (Path.backup file (count + 1)) location :=
        fun location outside inside => outside (backupRegion_of_shiftRegion noFolder inside)
      have step : ChangesWithin (BackupRegion file (count + 1)) tree next :=
        .of_node?_eq (fun outside => current_of_shift shifted (touched _ outside))
          fun location outside => node?_of_shift (Path.backup_ne_nil below _)
            (Path.backup_ne_nil below _) shifted (touched location outside)
      have fileStep := file_of_shift below noFolder shifted
      have stillNoFolder : next.node? file ≠ some .folder := by
        rcases fileStep with same | ⟨_, gone⟩
        · rwa [same]
        · simp [gone]
      have later := ih stillNoFolder
      refine ⟨step.trans (later.changes.mono ?_), fun filePlain plain => ?_, ?_⟩
      · rintro location (here | inside)
        · exact .inl here
        · exact .inr (inside.mono (Nat.le_succ count))
      · exact later.plain filePlain
          (isPlain_current_of_shift (filePlain.backup below _) plain shifted)
      · rcases fileStep with same | ⟨rfl, gone⟩
        · exact same ▸ later.file_cases
        · exact .inr ⟨rfl, gone⟩

theorem found?_eq (same : after.node? location = tree.node? location) :
    after.found? location = tree.found? location := by
  rw [found?, found?, same]

/-- After success the first backup is the file as it was, and the file is gone. -/
theorem node?_first_backup (below : file ≠ []) (found : tree.found? file = some (.file contents))
    (done : tree.backUp file (count + 1) = (after, .ok ())) :
    after.node? (Path.backup file 1) = some (.file contents) ∧ after.node? file = none := by
  have noFolder : tree.node? file ≠ some .folder := by simp [node?_of_found? found]
  induction count generalizing tree with
  | zero =>
    cases shifted : tree.shift (Path.backup file 0) (Path.backup file 1) with
    | error fault => simp [backUp_succ_of_error shifted] at done
    | ok next =>
      rw [backUp_succ_of_ok shifted, backUp] at done
      obtain rfl := (Prod.mk.inj done).1
      exact node?_of_shift_file below (Path.backup_ne_nil below 1) (ne_backup below 0) found shifted
  | succ count ih =>
    cases shifted : tree.shift (Path.backup file (count + 1)) (Path.backup file (count + 2)) with
    | error fault => simp [backUp_succ_of_error shifted] at done
    | ok next =>
      rw [backUp_succ_of_ok shifted] at done
      rcases file_of_shift below noFolder shifted with same | ⟨contrary, _⟩
      · exact ih ((found?_eq same).trans found) done (same ▸ noFolder)
      · contradiction

end BackUp

end Tree

end Determinizer.File
