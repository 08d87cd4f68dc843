import Determinizer.CommandLine.Session

/-! # The command line on real files

The files that the arguments name and the backups of the log file are read into a tree, the run is
computed, and what it changed in the tree is written back. The drawing program is not started from
here, so a request for a picture leaves a plain text of the graph. No clock is read either: a log file
shows dashes for the time and the place of a record.
-/

namespace Determinizer

open File (Location Node Tree)

/-- What stands at a location on disk. -/
def loadNode? (location : Location) : IO (Option Node) := do
  try
    let path ← IO.FS.realPath (File.Path.ofLocation location)
    if ← path.isDir then return some .folder
    return some (.file (← IO.FS.readBinFile path))
  catch _ => return none

/-- The tree with all that stands on the way to some locations. -/
def loadTree (current : Location) (locations : List Location) : IO Tree := do
  let mut tree := Tree.ofCurrent current
  for location in locations do
    for depth in List.range location.length do
      let above := location.take (depth + 1)
      if let some node ← loadNode? above then
        tree := tree.put above node
  return tree

/-- The locations of all that is in a folder on disk. -/
def locationsInside (location : Location) : IO (List Location) := do
  try
    let path ← IO.FS.realPath (File.Path.ofLocation location)
    if ← path.isDir then
      return (← path.walkDir).toList.map fun found => File.Path.normalize [] found.toString
    return []
  catch _ => return []

/-- The locations that a run may touch. -/
def touchedLocations (current : Location) (arguments : CommandLine.Arguments) :
    IO (List Location) := do
  let named := arguments.paths.flatMap fun path =>
    File.Path.waypoints (File.Path.start current path) (File.Path.parts path)
  let backups := arguments.logSetup.file.toList.flatMap fun path =>
    (List.range Log.backupCount).map fun number =>
      File.Path.backup (File.Path.normalize current path) (number + 1)
  return named ++ backups ++ (← backups.mapM locationsInside).flatten

/-- Writes what differs from the tree that was loaded. A file is moved to its place when it is
complete. -/
def storeTree (loaded changed : Tree) : IO Unit := do
  -- What is gone is taken away from the inside out, before anything new takes its place.
  for entry in loaded.nodes.entries.reverse do
    let path := File.Path.ofLocation entry.1
    match entry.2, changed.node? entry.1 with
    | .file _, some (.file _) => pure ()
    | .folder, some .folder => pure ()
    | .file _, _ => IO.FS.removeFile path
    | .folder, _ => IO.FS.removeDir path
  for entry in changed.nodes.entries do
    let path := File.Path.ofLocation entry.1
    if loaded.node? entry.1 ≠ some entry.2 then
      match entry.2 with
      | .folder => IO.FS.createDir path
      | .file contents =>
        let temporary := path ++ ".new"
        IO.FS.writeBinFile temporary contents
        IO.FS.rename temporary path

/-- Says how a run ended where the run itself has not said it, and gives the exit code. -/
def conclude : CommandLine.Ending → IO Nat
  | .exit code => return code
  | .usage 0 => do
    IO.print CommandLine.usage
    return 0
  | .usage code => do
    IO.eprint CommandLine.usage
    return code
  | .broken cause => do
    IO.eprintln cause.message
    return 1

/-- Refuses nothing, and knows neither times nor places. -/
def plainHost : CommandLine.Host where
  refusals := File.noRefusals
  stamp := fun _ _ => ⟨"-", "-"⟩

/-- A text in double quotes, with those in it escaped. -/
def inDoubleQuotes (text : String) : String := "\"" ++ text.replace "\"" "\\\"" ++ "\""

/-- An entry of a graph as text, with all names quoted. -/
def statementText : Dot.Statement → String
  | .setting key value => key ++ "=" ++ inDoubleQuotes value
  | .node name shape => inDoubleQuotes name ++ " [shape=" ++ shape ++ "]"
  | .edge tail head label =>
    inDoubleQuotes tail ++ " -> " ++ inDoubleQuotes head ++
      (label.map fun label => " [label=" ++ inDoubleQuotes label ++ "]").getD ""

/-- A plain text of a graph, one entry on each line. -/
def graphText (graph : Dot.Graph) : String :=
  "// " ++ graph.comment ++ "\ndigraph \x7b\n" ++
    String.join (graph.statements.map fun statement => "\t" ++ statementText statement ++ "\n") ++
    "\x7d\n"

end Determinizer

open Determinizer in
def main (words : List String) : IO UInt32 := do
  let current := File.Path.normalize [] (← IO.currentDir).toString
  let locations ←
    match CommandLine.Arguments.read words with
    | .ok arguments => touchedLocations current arguments
    | .error _ => pure []
  let files ← loadTree current locations
  let (session, ending) := CommandLine.run plainHost (.missing graphText) files words
  storeTree files session.files
  IO.print session.printed
  IO.eprint session.journal.console
  return (← conclude ending).toUInt32
