import Determinizer.Text.Blank

/-! # Paths

A path is a text whose parts stand between slashes. A location is the list of names that leads from
the root to a file or folder; an empty part and `.` stay where they are and `..` goes one up.
-/

namespace Determinizer.File

/-- The names from the root to a file or folder. -/
abbrev Location := List String

namespace Path

def parts (path : String) : List String :=
  (Text.pieces (· == '/') path.toList).map String.ofList

def isAbsolute (path : String) : Bool := path.toList.head? == some '/'

/-- Where the parts of a path start from. -/
def start (current : Location) (path : String) : Location :=
  if isAbsolute path then [] else current

/-- A part that stays at the same folder. -/
def isIdle (part : String) : Bool := part == "" || part == "."

/-- The location that one part leads to. -/
def step (location : Location) (part : String) : Location :=
  if isIdle part then location
  else if part == ".." then location.dropLast
  else location ++ [part]

/-- The location that a path spells, whatever stands there. -/
def normalize (current : Location) (path : String) : Location :=
  (parts path).foldl step (start current path)

/-- The parts before the last name of a path, and that name. Slashes at the end do not count. -/
def lastName? (path : String) : Option (List String × String) :=
  match (parts path).reverse.dropWhile (· == "") with
  | [] => none
  | name :: above => some (above.reverse, name)

/-- The paths that some parts spell when more and more of them are left out. The parts stand last
first, and so do the paths. -/
def pathsUp : List String → List String
  | [] => []
  | name :: above =>
    if name == "" then pathsUp above
    else "/".intercalate (name :: above).reverse :: pathsUp above

/-- The paths of the folders above a path, the nearest one first. -/
def foldersAbove (path : String) : List String := pathsUp ((parts path).reverse.drop 1)

/-- A path without the parts that stay at the same folder. -/
def withoutIdleParts (path : String) : String :=
  (if isAbsolute path then "/" else "") ++
    "/".intercalate ((parts path).filter (!isIdle ·))

/-- The path from the root to a location. -/
def ofLocation (location : Location) : String := "/" ++ "/".intercalate location

/-- The locations that following parts leads through, the end included. -/
def waypoints (location : Location) : List String → List Location
  | [] => [location]
  | part :: rest => location :: waypoints (step location part) rest

/-- The characters before the last one that satisfies `p`, if there is one. -/
def beforeLast? (p : Char → Bool) (text : List Char) : Option (List Char) :=
  match text.reverse.dropWhile (!p ·) with
  | [] => none
  | _ :: before => some before.reverse

/-- A path without the extension of its last name. Leading dots of the name begin no extension. -/
def withoutExtension (path : String) : String :=
  let chars := path.toList
  let name := (chars.reverse.takeWhile (· != '/')).reverse
  let folder := chars.take (chars.length - name.length)
  let dots := name.takeWhile (· == '.')
  let rest := name.dropWhile (· == '.')
  String.ofList (folder ++ dots ++ (beforeLast? (· == '.') rest).getD rest)

end Path

end Determinizer.File
