import Determinizer.Text.Quoted

/-! # Why a path cannot be used -/

namespace Determinizer.File

inductive Fault where
  /-- Nothing stands at the path, or a folder on the way does not exist. -/
  | missing
  /-- Something on the way is not a folder. -/
  | notFolder
  | isFolder
  | alreadyExists
  /-- The path names a folder that is in use as such: the root, `.` or `..`. -/
  | busy
  | nameTooLong
  /-- More folders of the path are missing than are made at once. -/
  | tooDeep
  /-- The path holds the character U+0000, which no path may. -/
  | zeroCharacter
  deriving DecidableEq, Repr, Inhabited

namespace Fault

/-- The number under which systems know the fault, if they are asked at all. -/
def number? : Fault → Option Nat
  | missing => some 2
  | notFolder => some 20
  | isFolder => some 21
  | alreadyExists => some 17
  | busy => some 16
  | nameTooLong => some 36
  | tooDeep => none
  | zeroCharacter => none

def text : Fault → String
  | missing => "No such file or directory"
  | notFolder => "Not a directory"
  | isFolder => "Is a directory"
  | alreadyExists => "File exists"
  | busy => "Device or resource busy"
  | nameTooLong => "File name too long"
  | tooDeep => "Too many folders are missing"
  | zeroCharacter => "embedded null byte"

/-- The fault as a message shows it for a path. -/
def message (fault : Fault) (path : String) : String :=
  match fault.number? with
  | some number =>
    "[Errno " ++ toString number ++ "] " ++ fault.text ++ ": " ++ Text.quoted path
  | none => fault.text

end Fault

end Determinizer.File
