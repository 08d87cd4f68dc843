import Determinizer.File.Tree

/-! # Making folders and files

A folder is made in a folder that is there. To make all folders of a path there are two ways: one
tries the last folder and goes up only where something is missing, the other looks from the top down
for what is there. They differ in the fault they report where a file stands in the way.
-/

namespace Determinizer.File.Tree

/-- Makes a folder in a folder that is there. -/
def makeFolder (tree : Tree) (path : String) : Except Fault Tree := do
  checkPath path
  match Path.lastName? path with
  | none => .error .alreadyExists
  | some (above, name) =>
    let folder ← tree.follow (Path.start tree.current path) above
    tree.requireFolder folder
    if name == "." || name == ".." then .error .alreadyExists
    else if maxName < name.utf8ByteSize then .error .nameTooLong
    else
      match tree.node? (folder ++ [name]) with
      | some _ => .error .alreadyExists
      | none => .ok (tree.put (folder ++ [name]) .folder)

/-- Makes a folder unless it is there. The tree comes back also after a failure. -/
def ensureFolder (tree : Tree) (path : String) : Tree × Except Fault Unit :=
  match tree.makeFolder path with
  | .ok grown => (grown, .ok ())
  | .error fault => (tree, if tree.isFolder path then .ok () else .error fault)

/-- The most folders that are made for one path, each from inside the call for the one below it. This
depth of calls is the only one that is limited here; the others are at most that of `Subset.choices`,
with a call for each declared state, and as deep as this it would have 2 ^ 985 subsets to list. -/
def maxMade : Nat := 985

/-- Makes the folder at the first of some paths, each of which lies above the one before it. The
paths above are tried only where something is missing, and no more paths than the number says. -/
def ensureFolders (tree : Tree) : Nat → List String → Tree × Except Fault Unit
  | _, [] => (tree, .ok ())
  | 0, _ :: _ => (tree, .error .tooDeep)
  | more + 1, path :: above =>
    match tree.makeFolder path with
    | .error .missing =>
      match tree.ensureFolders more above with
      | (grown, .ok ()) => grown.ensureFolder path
      | failed => failed
    | _ => tree.ensureFolder path

/-- Makes a folder unless it is there or its last part is `.`, which names the folder above. -/
def ensureNamed (tree : Tree) (path : String) : Tree × Except Fault Unit :=
  if (Path.parts path).getLast? = some "." then (tree, .ok ()) else tree.ensureFolder path

/-- Makes the folder at the first of some paths, each of which lies above the one before it, after
those above it, and tries no more paths than the number says. A file at a path above is noticed only
when a folder is to be made in it. -/
def makeFolders (tree : Tree) : Nat → List String → Tree × Except Fault Unit
  | _, [] => (tree, .ok ())
  | 0, _ :: _ => (tree, .error .tooDeep)
  | more + 1, path :: above =>
    if above.head?.all tree.standsAt then tree.ensureFolder path
    else
      let (grown, result) := tree.makeFolders more above
      match result with
      | .ok () => grown.ensureNamed path
      | .error .alreadyExists => grown.ensureNamed path
      | .error fault => (grown, .error fault)

/-- The location of the file that is opened for writing at a path. -/
def writeTarget (tree : Tree) (path : String) : Except Fault Location := do
  checkPath path
  let parts := Path.parts path
  let folder ← tree.follow (Path.start tree.current path) parts.dropLast
  tree.requireFolder folder
  let name := parts.getLastD ""
  if Path.isIdle name || name == ".." then .error .isFolder
  else if maxName < name.utf8ByteSize then .error .nameTooLong
  else
    match tree.node? (folder ++ [name]) with
    | some .folder => .error .isFolder
    | _ => .ok (folder ++ [name])

/-- Writes a file at a path, in place of a file that stands there, making the folders above it. The
tree comes back also after a failure. -/
def save (tree : Tree) (path : String) (contents : ByteArray) : Tree × Except Fault Unit :=
  match tree.makeFolders maxMade (Path.foldersAbove path) with
  | (grown, .error fault) => (grown, .error fault)
  | (grown, .ok ()) =>
    match grown.writeTarget path with
    | .error fault => (grown, .error fault)
    | .ok target => (grown.put target (.file contents), .ok ())

end Determinizer.File.Tree
