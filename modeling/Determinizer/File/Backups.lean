import Determinizer.File.Tree

/-! # Backups of a file

The backups of a file stand beside it, under its name with a number behind. To back a file up, each
backup is moved to the next number, from the highest one down, and the file itself becomes the first
backup. A file at the highest number is lost. A folder at the place of a backup is moved like one,
with all that is in it, but nothing is moved over a folder.
-/

namespace Determinizer.File

namespace Path

/-- The location of a backup of a file. The backup of number zero is the file itself. -/
def backup (file : Location) : Nat → Location
  | 0 => file
  | number + 1 => file.dropLast ++ [file.getLastD "" ++ "." ++ toString (number + 1)]

/-- Where a location lies after a folder has been moved. -/
def carry (source target location : Location) : Location :=
  if source.isPrefixOf location then target ++ location.drop source.length else location

end Path

namespace Tree

/-- Refuses locations that cannot be looked up although the folder above is there. -/
def checkPlace (location : Location) : Except Fault Unit := do
  checkLocation location
  if maxName < (location.getLastD "").utf8ByteSize then .error .nameTooLong else .ok ()

/-- What stands at a location whose folder is there, as it is looked up by its path. -/
def found? (tree : Tree) (location : Location) : Option Node :=
  match checkPlace location with
  | .ok () => tree.node? location
  | .error _ => none

/-- Takes away the file at a location, if there is one. -/
def clear (tree : Tree) (location : Location) : Except Fault Tree :=
  match tree.node? location with
  | none => .ok tree
  | some (.file _) => .ok (tree.remove location)
  | some .folder => .error .isFolder

/-- Moves a folder with all that is in it, also the current folder. -/
def moveFolder (tree : Tree) (source target : Location) : Tree :=
  let inside := tree.nodes.entries.filter fun entry => source.isPrefixOf entry.1
  let moved := inside.foldl
    (fun tree entry => (tree.remove entry.1).put (Path.carry source target entry.1) entry.2) tree
  { moved with current := Path.carry source target tree.current }

/-- Moves what stands at a location to another place, where a file is taken away before. Where nothing
stands nothing is done. -/
def shift (tree : Tree) (source target : Location) : Except Fault Tree :=
  match tree.found? source with
  | none => .ok tree
  | some node => do
    checkPlace target
    let cleared ← tree.clear target
    match node with
    | .file contents => .ok ((cleared.remove source).put target (.file contents))
    | .folder => .ok (cleared.moveFolder source target)

/-- Backs a file up, with so many backups. What has been moved stays moved after a failure. -/
def backUp (tree : Tree) (file : Location) : Nat → Tree × Except Fault Unit
  | 0 => (tree, .ok ())
  | number + 1 =>
    match tree.shift (Path.backup file number) (Path.backup file (number + 1)) with
    | .ok shifted => shifted.backUp file number
    | .error fault => (tree, .error fault)

end Tree

end Determinizer.File
