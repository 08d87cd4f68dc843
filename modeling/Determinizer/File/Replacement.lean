import Determinizer.File.Tree

/-! # Replacing a file as a whole

New contents are first written to a temporary file in the folder of the target, which is then moved
to the target. If any step fails the temporary file is removed again, so the target has either its
old or its new contents.
-/

namespace Determinizer.File

/-- The steps of a replacement. -/
inductive ReplacementStep where
  | create
  | fill
  | move
  deriving DecidableEq, Repr

/-- The step that a replacement fails at, and why. -/
structure ReplacementFault where
  step : ReplacementStep
  fault : Fault
  deriving DecidableEq, Repr

/-- The steps that the system refuses for reasons outside the tree, such as a full disk. -/
abbrev Refusals := ReplacementStep → Option Fault

/-- Refuses nothing. -/
def noRefusals : Refusals := fun _ => none

namespace Tree

/-- How many names are tried for a temporary file. -/
def temporaryAttempts : Nat := 10000

/-- The name tried at an attempt, with eight digits in its middle. -/
def temporaryName (attempt : Nat) : String :=
  let digits := toString attempt
  ".nfa2dfa-" ++ "".pushn '0' (8 - digits.length) ++ digits ++ ".tmp"

/-- The first name from an attempt on that is not taken, if there is one among so many. -/
def freeName? (taken : String → Bool) (attempt : Nat) : Nat → Option String
  | 0 => none
  | more + 1 =>
    if taken (temporaryName attempt) then freeName? taken (attempt + 1) more
    else some (temporaryName attempt)

/-- An unused location for a temporary file in the folder of the location that a path spells. Its
name is none of the parts of the path, which therefore leads to the same place with the file and
without it. -/
def temporaryLocation (tree : Tree) (path : String) : Except Fault Location := do
  let folder := (Path.normalize tree.current path).dropLast
  let taken := fun name =>
    (Path.parts path).contains name || tree.nodes.keys.contains (folder ++ [name])
  match freeName? taken 0 temporaryAttempts with
  | none => .error .alreadyExists
  | some name =>
    checkLocation (folder ++ [name])
    let found ← tree.follow [] folder
    tree.requireFolder found
    .ok (found ++ [name])

/-- The location at which a file that is moved to a path comes to stand. -/
def moveTarget (tree : Tree) (path : String) : Except Fault Location := do
  checkPath path
  match Path.lastName? path with
  | none => .error .busy
  | some (above, name) =>
    let folder ← tree.follow (Path.start tree.current path) above
    tree.requireFolder folder
    if name == "." || name == ".." then .error .busy
    else if maxName < name.utf8ByteSize then .error .nameTooLong
    else if path.toList.getLast? == some '/' then .error .notFolder
    else
      match tree.node? (folder ++ [name]) with
      | some .folder => .error .isFolder
      | _ => .ok (folder ++ [name])

/-- Replaces the file at a path, or makes one there. The tree comes back also after a failure. -/
def replaceFile (refusals : Refusals) (tree : Tree) (path : String) (contents : ByteArray) :
    Tree × Except ReplacementFault Unit :=
  match tree.temporaryLocation path, refusals .create with
  | .error fault, _ => (tree, .error ⟨.create, fault⟩)
  | .ok _, some fault => (tree, .error ⟨.create, fault⟩)
  | .ok temporary, none =>
    let created := tree.put temporary (.file ByteArray.empty)
    match refusals .fill with
    | some fault => (created.remove temporary, .error ⟨.fill, fault⟩)
    | none =>
      let filled := created.put temporary (.file contents)
      match filled.moveTarget path, refusals .move with
      | .error fault, _ => (filled.remove temporary, .error ⟨.move, fault⟩)
      | .ok _, some fault => (filled.remove temporary, .error ⟨.move, fault⟩)
      | .ok target, none => ((filled.remove temporary).put target (.file contents), .ok ())

end Tree

end Determinizer.File
