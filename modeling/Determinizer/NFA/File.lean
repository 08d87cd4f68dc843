import Determinizer.Failure
import Determinizer.File.Tree
import Determinizer.NFA.Reader
import Determinizer.Text.Newline

/-! # Automata from files

A description file is UTF-8 text; every line end in it counts as a line feed.
-/

namespace Determinizer.NFA

/-- The text of a file. A path that cannot be a path at all is not an error of reading. -/
def readText (files : File.Tree) (path : String) : Except Failure String :=
  match files.read path with
  | .error .zeroCharacter => .error (.fault .zeroCharacter)
  | .error fault => .error (.error (.unreadable path (.path fault)))
  | .ok contents =>
    match Text.Utf8.decode contents with
    | .error fault => .error (.error (.unreadable path (.encoding fault)))
    | .ok text => .ok (Text.withLineFeeds text)

/-- Reads an automaton from a file. -/
def ofFile (files : File.Tree) (strict : Bool) (path : String) : Outcome Failure NFA := do
  let text ← .ofExcept (readText files path)
  (ofText strict text).mapError .error

/-- A file that can be decoded is read like its text with one kind of line end. -/
theorem ofFile_of_read {files : File.Tree} {path text : String}
    (stands : files.read path = .ok text.toUTF8) (strict : Bool) :
    ofFile files strict path = (ofText strict (Text.withLineFeeds text)).mapError .error := by
  have read : readText files path = .ok (Text.withLineFeeds text) := by
    simp only [readText, stands, Text.Utf8.decode_toUTF8]
  rw [ofFile, read, Outcome.ofExcept_ok_bind]

end Determinizer.NFA
