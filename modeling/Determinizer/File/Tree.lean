import Determinizer.File.Fault
import Determinizer.File.Path
import Determinizer.Table

/-! # Trees of files

A tree holds files and folders by location, and a current folder from which relative paths start. A
path is followed part by part, and each part but the last has to lead to a folder.
-/

namespace Determinizer.File

inductive Node where
  | folder
  | file (contents : ByteArray)

instance : DecidableEq Node
  | .folder, .folder => .isTrue rfl
  | .folder, .file _ => .isFalse nofun
  | .file _, .folder => .isFalse nofun
  | .file left, .file right =>
    if same : left.data = right.data then .isTrue (congrArg Node.file (ByteArray.ext same))
    else .isFalse fun equal => same (congrArg ByteArray.data (Node.file.inj equal))

structure Tree where
  nodes : Table Location Node
  current : Location

namespace Tree

/-- What stands at a location; the root is always a folder. -/
def node? (tree : Tree) (location : Location) : Option Node :=
  if location.isEmpty then some .folder else tree.nodes.get? location

/-- Puts a file or folder at a location, in place of what stands there. -/
def put (tree : Tree) (location : Location) (node : Node) : Tree :=
  { tree with nodes := tree.nodes.insert location node }

def remove (tree : Tree) (location : Location) : Tree :=
  { tree with nodes := tree.nodes.erase location }

/-- The longest name and the longest path that are looked up, in bytes. -/
def maxName : Nat := 255

def maxPath : Nat := 4095

/-- Refuses paths that cannot be looked up at all. -/
def checkPath (path : String) : Except Fault Unit :=
  if path.toList.contains '\x00' then .error .zeroCharacter
  else if path.isEmpty then .error .missing
  else if maxPath < path.utf8ByteSize then .error .nameTooLong
  else .ok ()

/-- Refuses locations that cannot be looked up by their path from the root. -/
def checkLocation (location : Location) : Except Fault Unit :=
  checkPath (Path.ofLocation location)

/-- Succeeds at a folder. -/
def requireFolder (tree : Tree) (location : Location) : Except Fault Unit :=
  match tree.node? location with
  | some .folder => .ok ()
  | some (.file _) => .error .notFolder
  | none => .error .missing

/-- Follows parts from a location. Nothing has to stand at the location they end at. -/
def follow (tree : Tree) : Location → List String → Except Fault Location
  | location, [] => .ok location
  | location, part :: rest => do
    tree.requireFolder location
    if maxName < part.utf8ByteSize then .error .nameTooLong
    else tree.follow (Path.step location part) rest

/-- The location that a path leads to. -/
def locate (tree : Tree) (path : String) : Except Fault Location := do
  checkPath path
  tree.follow (Path.start tree.current path) (Path.parts path)

/-- What stands at a path. -/
def stat (tree : Tree) (path : String) : Except Fault Node := do
  match tree.node? (← tree.locate path) with
  | some node => .ok node
  | none => .error .missing

/-- The contents of the file at a path. -/
def read (tree : Tree) (path : String) : Except Fault ByteArray := do
  match ← tree.stat path with
  | .file contents => .ok contents
  | .folder => .error .isFolder

/-- What the file at a location holds; where there is no file, nothing. -/
def contentsAt (tree : Tree) (location : Location) : ByteArray :=
  match tree.node? location with
  | some (.file contents) => contents
  | _ => ByteArray.empty

/-- Whether anything stands at a path. -/
def standsAt (tree : Tree) (path : String) : Bool := (tree.stat path).toBool

/-- Whether a folder stands at a path. -/
def isFolder (tree : Tree) (path : String) : Bool :=
  match tree.stat path with
  | .ok .folder => true
  | _ => false

/-- The files below a folder, by their paths from there, in the order of these paths. -/
def filesBelow (tree : Tree) (folder : Location) : List (String × ByteArray) :=
  let found := tree.nodes.entries.filterMap fun entry =>
    match entry.2 with
    | .file contents =>
      if folder.isPrefixOf entry.1 then
        some ("/".intercalate (entry.1.drop folder.length), contents)
      else none
    | .folder => none
  found.mergeSort fun left right => left.1 ≤ right.1

/-- A tree of empty folders down to a current folder. -/
def ofCurrent (current : Location) : Tree :=
  let folders := (List.range current.length).map fun depth => (current.take (depth + 1), Node.folder)
  ⟨Table.ofList folders, current⟩

end Tree

end Determinizer.File
