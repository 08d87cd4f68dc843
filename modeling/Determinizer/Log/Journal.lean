import Determinizer.File.Backups
import Determinizer.File.Creation
import Determinizer.Log.Record

/-! # Where log records go

A journal writes records to the console and to a log file, as the latest setup says. A setup gives
the least level that is written, and takes the place of the one before it; one that fails leaves
the outputs as they are. Log files are appended to, up to a size: a line that would reach it begins a
new file, and the old one becomes the first of three backups. Where a setup gives neither a console
nor a file, messages of warnings and above still come to the console, without level and logger.
-/

namespace Determinizer.Log

open File (Fault Location Tree)

/-- What a setup asks for; the level is still a text. -/
structure Setup where
  level : String
  file : Option String
  console : Bool
  deriving DecidableEq, Repr

/-- The outputs of a setup. -/
structure Sinks where
  threshold : Level
  console : Bool
  file : Option Location
  deriving DecidableEq, Repr

/-- The outputs before any setup: none, for warnings and above. -/
def Sinks.unset : Sinks := ⟨.warning, false, none⟩

/-- Why a setup fails. -/
inductive SetupFault where
  | folder (fault : Fault)
  | file (fault : Fault)
  | unknownLevel (level : String)
  deriving DecidableEq, Repr

/-- The files, all that was written to the console, the outputs in use, and the records that the
setups have let pass. -/
structure Journal where
  files : Tree
  console : String
  sinks : Sinks
  records : List Record

/-- A journal that no setup has been made for. -/
def Journal.ofFiles (files : Tree) : Journal := ⟨files, "", .unset, []⟩

/-- Makes the folder of a log file, whose path counts without idle parts. -/
def makeLogFolder (files : Tree) (path : String) : Tree × Except Fault Unit :=
  files.ensureFolders File.Tree.maxMade (File.Path.foldersAbove (File.Path.withoutIdleParts path))

/-- Opens a log file at the end, making it if there is none. -/
def openLogFile (files : Tree) (path : String) : Except Fault (Tree × Location) := do
  let location := File.Path.normalize files.current path
  Tree.checkLocation location
  let found ← files.follow [] location
  match files.node? found with
  | some .folder => .error .isFolder
  | some (.file _) => .ok (files, found)
  | none =>
    files.requireFolder found.dropLast
    .ok (files.put found (.file ByteArray.empty), found)

/-- The files after a setup, and its outputs or why it failed. With a console the level is looked at
before the log file is opened, without one after that. -/
def Setup.start (setup : Setup) (files : Tree) : Tree × Except SetupFault Sinks :=
  let unknown := SetupFault.unknownLevel setup.level
  match setup.file, Level.ofThreshold? setup.level with
  | none, none => (files, .error unknown)
  | none, some threshold => (files, .ok ⟨threshold, setup.console, none⟩)
  | some path, level? =>
    match makeLogFolder files path with
    | (grown, .error fault) => (grown, .error (.folder fault))
    | (grown, .ok ()) =>
      if setup.console && level?.isNone then (grown, .error unknown)
      else
        match openLogFile grown path with
        | .error fault => (grown, .error (.file fault))
        | .ok (opened, location) =>
          match level? with
          | none => (opened, .error unknown)
          | some threshold => (opened, .ok ⟨threshold, setup.console, some location⟩)

/-- A record that a setup lets pass. -/
def Sinks.admits (sinks : Sinks) (record : Record) : Bool := sinks.threshold ≤ record.level

/-- What an admitted record writes to the console. -/
def Sinks.consoleText (sinks : Sinks) (record : Record) : String :=
  if sinks.console then record.consoleLine
  else if sinks.file.isNone ∧ Level.warning ≤ record.level then record.bareLine
  else ""

/-- Appends text to the file at a location, or makes one there. -/
def appendText (files : Tree) (location : Location) (text : String) : Tree :=
  files.put location (.file (files.contentsAt location ++ text.toUTF8))

/-- The size at which a log file is backed up. -/
@[irreducible] def sizeLimit : Nat := 1048576

/-- How many backups of a log file are kept. -/
def backupCount : Nat := 3

/-- A line is too much for a log file. The file is measured in bytes and the line in characters. -/
def isTooMuch (files : Tree) (location : Location) (line : String) : Bool :=
  sizeLimit ≤ (files.contentsAt location).size + line.length

/-- Writes a line to a log file. If it is too much the file is backed up first and the line begins a
new one; a line is lost where that fails. -/
def writeLine (files : Tree) (location : Location) (line : String) : Tree :=
  if isTooMuch files location line then
    match files.backUp location backupCount with
    | (moved, .ok ()) => appendText moved location line
    | (moved, .error _) => moved
  else appendText files location line

namespace Journal

/-- Makes a setup in place of the one before it. -/
def setUp (journal : Journal) (setup : Setup) : Journal × Except SetupFault Unit :=
  match setup.start journal.files with
  | (files, .ok sinks) => ({ journal with files, sinks }, .ok ())
  | (files, .error fault) => ({ journal with files }, .error fault)

/-- Writes a record to the outputs that let it pass. What the console is told of a line that was lost
is left out here. -/
def log (journal : Journal) (record : Record) : Journal :=
  let sinks := journal.sinks
  if sinks.admits record then
    { journal with
      console := journal.console ++ sinks.consoleText record
      files :=
        match sinks.file with
        | some location => writeLine journal.files location record.fileLine
        | none => journal.files
      records := journal.records ++ [record] }
  else journal

/-- The log file is backed up before a record is written to it. -/
def rollsOver (journal : Journal) (record : Record) : Bool :=
  journal.sinks.admits record &&
    journal.sinks.file.any fun location => isTooMuch journal.files location record.fileLine

/-- Writes a text to the console that is no record. -/
def print (journal : Journal) (text : String) : Journal :=
  { journal with console := journal.console ++ text }

end Journal

end Determinizer.Log
