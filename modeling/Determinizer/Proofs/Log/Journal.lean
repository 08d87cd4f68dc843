import Determinizer.Log.Journal
import Determinizer.Proofs.File.Backups

/-! # What a log leaves alone

A setup makes the folders of its log file and opens that file, and records are written to it. While
they have room in it no other file changes. Records that fill the file move it to its backups, so then
these change as well. The log file stays open for the records to come.
-/

namespace Determinizer.Text

/-- No text has more characters than bytes. -/
theorem length_le_utf8ByteSize (text : String) : text.length ≤ text.utf8ByteSize := by
  rw [← String.ofList_toList (s := text)]
  induction text.toList with
  | nil => exact Nat.zero_le _
  | cons char rest ih =>
    have positive := char.utf8Size_pos
    rw [String.ofList_cons, String.length_append, String.utf8ByteSize_append,
      String.utf8ByteSize_singleton, String.length_singleton]
    omega

end Determinizer.Text

namespace Determinizer.Log

open File (Fault Location Tree)
open File.Tree (BackupRegion ChangesOnly ChangesWithin)

variable {files opened after final : Tree} {location file : Location} {path : String} {setup : Setup}
  {journal next last : Journal} {sinks : Sinks} {records later : List Record}

theorem changesOnly_makeLogFolder (files : Tree) (path : String) :
    ChangesOnly [] files (makeLogFolder files path).1 :=
  File.Tree.changesOnly_ensureFolders ..

/-- An opened log file stands at the location that its path spells. -/
theorem eq_normalize_of_openLogFile (plain : File.Path.IsPlain files.current)
    (opens : openLogFile files path = .ok (opened, location)) :
    location = File.Path.normalize files.current path ∧ ChangesOnly [location] files opened ∧
      ∃ contents, opened.node? location = some (.file contents) := by
  simp only [openLogFile, File.Tree.bind_eq_ok_iff] at opens
  obtain ⟨_, _, found, followed, opens⟩ := opens
  obtain rfl := File.Tree.eq_of_follow_isPlain (plain.normalize path) followed
  split at opens
  · contradiction
  · rename_i contents stands
    obtain ⟨rfl, rfl⟩ := Prod.mk.inj (Except.ok.inj opens)
    exact ⟨rfl, .refl _ _, contents, stands⟩
  · rename_i free
    obtain ⟨_, _, opens⟩ := File.Tree.bind_eq_ok_iff.mp opens
    obtain ⟨rfl, rfl⟩ := Prod.mk.inj (Except.ok.inj opens)
    have noFolder : files.node? (File.Path.normalize files.current path) ≠ some .folder := by
      simp [free]
    have below := File.Tree.ne_nil_of_noFolder noFolder
    refine ⟨rfl, File.Tree.changesOnly_put_file below noFolder _, ByteArray.empty, ?_⟩
    rw [File.Tree.node?_put below, if_pos rfl]

/-- A file that is there is opened as it is. -/
theorem openLogFile_of_file {contents : ByteArray}
    (looked : Tree.checkLocation (File.Path.normalize files.current path) = .ok ())
    (found : files.follow [] (File.Path.normalize files.current path) = .ok location)
    (stands : files.node? location = some (.file contents)) :
    openLogFile files path = .ok (files, location) := by
  simp only [openLogFile, File.Tree.bind_eq_ok_iff]
  refine ⟨(), looked, location, found, ?_⟩
  rw [stands]

/-- To open a log file changes no contents: a file that was not there is empty. -/
theorem contentsAt_of_openLogFile (opens : openLogFile files path = .ok (opened, location))
    (other : Location) : opened.contentsAt other = files.contentsAt other := by
  simp only [openLogFile, File.Tree.bind_eq_ok_iff] at opens
  obtain ⟨_, _, found, _, opens⟩ := opens
  split at opens
  · contradiction
  · obtain ⟨rfl, rfl⟩ := Prod.mk.inj (Except.ok.inj opens)
    rfl
  · rename_i free
    obtain ⟨_, _, opens⟩ := File.Tree.bind_eq_ok_iff.mp opens
    obtain ⟨rfl, rfl⟩ := Prod.mk.inj (Except.ok.inj opens)
    have noFolder : files.node? found ≠ some .folder := by simp [free]
    rw [File.Tree.contentsAt_put_file (File.Tree.ne_nil_of_noFolder noFolder)]
    split
    · rename_i same
      rw [same, File.Tree.contentsAt_of_none free]
    · rfl

/-- The location of the log file that a setup asks for. -/
def Setup.location? (setup : Setup) (current : Location) : Option Location :=
  setup.file.map (File.Path.normalize current)

/-- What a setup does to the files, whether it succeeds or not: no file but the log file changes, not
even that holds anything new, and after success the log file is there. -/
structure Setup.Effect (setup : Setup) (files after : Tree) (result : Except SetupFault Sinks) :
    Prop where
  changes : ChangesOnly (setup.location? files.current).toList files after
  contents_eq : ∀ location, after.contentsAt location = files.contentsAt location
  file_eq : ∀ sinks, result = .ok sinks → sinks.file = setup.location? files.current
  stands : ∀ sinks, result = .ok sinks → ∀ location ∈ sinks.file,
    ∃ contents, after.node? location = some (.file contents)

theorem Setup.effect_of_error {after : Tree} {fault : SetupFault}
    (changes : ChangesOnly (setup.location? files.current).toList files after)
    (contents_eq : ∀ location, after.contentsAt location = files.contentsAt location) :
    setup.Effect files after (.error fault) :=
  ⟨changes, contents_eq, nofun, nofun⟩

theorem Setup.effect_start (plain : File.Path.IsPlain files.current) (setup : Setup) :
    setup.Effect files (setup.start files).1 (setup.start files).2 := by
  simp only [start]
  split
  · exact effect_of_error (.refl _ _) fun _ => rfl
  · rename_i threshold file_eq _
    have none : setup.location? files.current = none := by rw [location?, file_eq, Option.map_none]
    refine ⟨.refl _ _, fun _ => rfl, ?_, ?_⟩
    · rintro _ ⟨⟩
      exact none.symm
    · rintro _ ⟨⟩ location ⟨⟩
  rename_i level? path file_eq
  have located : setup.location? files.current = some (File.Path.normalize files.current path) := by
    rw [location?, file_eq, Option.map_some]
  have made := changesOnly_makeLogFolder files path
  split
  · rename_i grown fault folders
    rw [folders] at made
    exact effect_of_error (made.mono (List.nil_subset _))
      fun _ => made.contentsAt_eq List.not_mem_nil
  · rename_i grown folders
    rw [folders] at made
    have grown_eq : ∀ location, grown.contentsAt location = files.contentsAt location :=
      fun _ => made.contentsAt_eq List.not_mem_nil
    replace made := made.mono (List.nil_subset (setup.location? files.current).toList)
    split
    · exact effect_of_error made grown_eq
    · split
      · exact effect_of_error made grown_eq
      · rename_i opened location opens
        obtain ⟨location_eq, changes, contents, stands⟩ :=
          eq_normalize_of_openLogFile (made.current_eq ▸ plain) opens
        have contents_eq : ∀ location, opened.contentsAt location = files.contentsAt location :=
          fun location => (contentsAt_of_openLogFile opens location).trans (grown_eq location)
        rw [made.current_eq] at location_eq
        have both : ChangesOnly (setup.location? files.current).toList files opened := by
          refine made.trans ?_
          rwa [located, Option.toList_some, ← location_eq]
        split
        · exact effect_of_error both contents_eq
        · refine ⟨both, contents_eq, ?_, ?_⟩
          · rintro _ ⟨⟩
            rw [located, location_eq]
          · rintro _ ⟨⟩ _ ⟨⟩
            exact ⟨contents, stands⟩

section Writing

/-- The lines of some records in bytes. -/
def byteCount : List Record → Nat
  | [] => 0
  | record :: rest => record.fileLine.utf8ByteSize + byteCount rest

/-- What a log file holds and the lines of some records make up the size at which it is backed up. -/
def Fills (files : Tree) (file : Location) (records : List Record) : Prop :=
  sizeLimit ≤ (files.contentsAt file).size + byteCount records

/-- What may change when some records are written to a log file, if there is one: the log file and, if
the records fill it, its backups with all that is in them. -/
def LogRegion (files : Tree) (file? : Option Location) (records : List Record)
    (location : Location) : Prop :=
  ∃ file ∈ file?, location = file ∨
    Fills files file records ∧ File.Path.InBackup file backupCount location

@[simp] theorem byteCount_append (records later : List Record) :
    byteCount (records ++ later) = byteCount records + byteCount later := by
  induction records with
  | nil => exact (Nat.zero_add _).symm
  | cons record rest ih => rw [List.cons_append, byteCount, byteCount, ih, Nat.add_assoc]

theorem LogRegion.mono {file? : Option Location} (inside : LogRegion files file? records location)
    (fewer : byteCount records ≤ byteCount later) : LogRegion files file? later location := by
  obtain ⟨file, member, here | ⟨fills, backup⟩⟩ := inside
  · exact ⟨file, member, .inl here⟩
  · exact ⟨file, member, .inr ⟨Nat.le_trans fills (Nat.add_le_add_left fewer _), backup⟩⟩

/-- What writing some records to an open log file does. -/
structure Writes (files : Tree) (file : Location) (records : List Record) (after : Tree) : Prop where
  changes : ChangesWithin (LogRegion files (some file) records) files after
  plain : File.Path.IsPlain files.current → File.Path.IsPlain after.current
  stands : ∃ contents, after.node? file = some (.file contents)
  size_le : (after.contentsAt file).size ≤ (files.contentsAt file).size + byteCount records

theorem Writes.refl {contents : ByteArray} (stands : files.node? file = some (.file contents)) :
    Writes files file [] files :=
  ⟨.refl _ _, fun plain => plain, ⟨contents, stands⟩, Nat.le_add_right ..⟩

theorem Writes.trans (first : Writes files file records after)
    (second : Writes after file later final) : Writes files file (records ++ later) final where
  changes := by
    have size_le := first.size_le
    refine (first.changes.mono fun location inside => ?_).trans
      (second.changes.mono fun location inside => ?_)
    · exact inside.mono (by simp)
    · obtain ⟨_, ⟨⟩, here | ⟨fills, backup⟩⟩ := inside
      · exact ⟨file, rfl, .inl here⟩
      · refine ⟨file, rfl, .inr ⟨?_, backup⟩⟩
        rw [Fills, byteCount_append] at *
        omega
  plain := fun plain => second.plain (first.plain plain)
  stands := second.stands
  size_le := by
    have firstSize := first.size_le
    have secondSize := second.size_le
    rw [byteCount_append]
    omega

theorem node?_appendText (below : location ≠ []) (text : String) (other : Location) :
    (appendText files location text).node? other =
      if other = location then some (.file (files.contentsAt location ++ text.toUTF8))
      else files.node? other :=
  File.Tree.node?_put below _ _

theorem changesOnly_appendText (below : location ≠ []) (noFolder : files.node? location ≠ some .folder)
    (text : String) : ChangesOnly [location] files (appendText files location text) :=
  File.Tree.changesOnly_put_file below noFolder _

/-- What appending a record does, also where the file is not there yet. -/
theorem writes_appendText (below : file ≠ []) (noFolder : files.node? file ≠ some .folder)
    (record : Record) : Writes files file [record] (appendText files file record.fileLine) := by
  have changes := changesOnly_appendText below noFolder record.fileLine
  have stands : (appendText files file record.fileLine).node? file =
      some (.file (files.contentsAt file ++ record.fileLine.toUTF8)) :=
    (node?_appendText below record.fileLine file).trans (if_pos rfl)
  refine ⟨changes.within ?_, fun plain => plain, ⟨_, stands⟩, ?_⟩
  · rintro _ (_ | ⟨_, ⟨⟩⟩)
    exact ⟨file, rfl, .inl rfl⟩
  · rw [File.Tree.contentsAt_of_node? stands, ByteArray.size_append]
    simp [byteCount]

theorem fills_of_isTooMuch {record : Record}
    (tooMuch : isTooMuch files file record.fileLine = true) : Fills files file [record] := by
  have shorter := Text.length_le_utf8ByteSize record.fileLine
  rw [isTooMuch, decide_eq_true_iff] at tooMuch
  rw [Fills, byteCount, byteCount]
  omega

/-- What a line does that is too much for a log file: the file is backed up and the line begins a new
one, or nothing but backups has moved. -/
theorem writes_backUp {contents : ByteArray} {result : Except Fault Unit} {moved : Tree}
    {record : Record} (plain : File.Path.IsPlain file)
    (stands : files.node? file = some (.file contents)) (fills : Fills files file [record])
    (backedUp : files.backUp file backupCount = (moved, result)) :
    (result = .ok () → Writes files file [record] (appendText moved file record.fileLine)) ∧
      (result ≠ .ok () → Writes files file [record] moved) := by
  have below := File.Tree.ne_nil_of_file stands
  have noFolder : files.node? file ≠ some .folder := by simp [stands]
  have backs := File.Tree.backsUp_backUp below noFolder backupCount
  rw [backedUp] at backs
  have changes : ChangesWithin (LogRegion files (some file) [record]) files moved := by
    refine backs.changes.mono ?_
    rintro location (here | inside)
    · exact ⟨file, rfl, .inl here⟩
    · exact ⟨file, rfl, .inr ⟨fills, inside⟩⟩
  constructor
  · intro _
    have movedNoFolder : moved.node? file ≠ some .folder := by
      rcases backs.file_cases with same | ⟨_, gone⟩
      · rwa [same]
      · simp [gone]
    have appended := writes_appendText below movedNoFolder record
    have shrinks : (moved.contentsAt file).size ≤ (files.contentsAt file).size := by
      rcases backs.file_cases with same | ⟨_, gone⟩
      · rw [File.Tree.contentsAt_of_node? (same.trans stands),
          File.Tree.contentsAt_of_node? stands]
      · rw [File.Tree.contentsAt_of_none gone]
        exact Nat.zero_le _
    refine ⟨changes.trans (appended.changes.mono ?_),
      fun currentPlain => appended.plain (backs.plain plain currentPlain), appended.stands,
      appended.size_le.trans (Nat.add_le_add_right shrinks _)⟩
    rintro location ⟨_, ⟨⟩, here | ⟨_, inside⟩⟩
    · exact ⟨file, rfl, .inl here⟩
    · exact ⟨file, rfl, .inr ⟨fills, inside⟩⟩
  · intro failed
    rcases backs.file_cases with same | ⟨done, _⟩
    · refine ⟨changes, backs.plain plain, ⟨contents, same.trans stands⟩, ?_⟩
      rw [File.Tree.contentsAt_of_node? (same.trans stands), File.Tree.contentsAt_of_node? stands]
      exact Nat.le_add_right ..
    · exact absurd done failed

/-- A line that has room in the log file is appended to it. -/
theorem writeLine_of_room {line : String} (room : isTooMuch files location line = false) :
    writeLine files location line = appendText files location line := by
  rw [writeLine, if_neg (by simp [room])]

/-- A record is written to the log file, to a new one in its place, or not at all. -/
theorem writes_writeLine {contents : ByteArray} (plain : File.Path.IsPlain file)
    (stands : files.node? file = some (.file contents)) (record : Record) :
    Writes files file [record] (writeLine files file record.fileLine) := by
  rw [writeLine]
  split
  · rename_i tooMuch
    have fills := fills_of_isTooMuch tooMuch
    split
    · rename_i moved backedUp
      exact (writes_backUp plain stands fills backedUp).1 rfl
    · rename_i moved fault backedUp
      exact (writes_backUp plain stands fills backedUp).2 nofun
  · exact writes_appendText (File.Tree.ne_nil_of_file stands) (by simp [stands]) record

/-- The files after the lines of some records were written to the log file, if there is one. -/
def writeLines (files : Tree) : Option Location → List Record → Tree
  | none, _ => files
  | some file, records =>
    records.foldl (fun files record => writeLine files file record.fileLine) files

theorem writeLines_append (files : Tree) (file? : Option Location) (records later : List Record) :
    writeLines files file? (records ++ later) = writeLines (writeLines files file? records) file? later := by
  cases file? with
  | none => rfl
  | some file => exact List.foldl_append

theorem writes_writeLines {contents : ByteArray} (plain : File.Path.IsPlain file)
    (stands : files.node? file = some (.file contents)) (records : List Record) :
    Writes files file records (writeLines files (some file) records) := by
  induction records generalizing files contents with
  | nil => exact .refl stands
  | cons record rest ih =>
    have first := writes_writeLine plain stands record
    obtain ⟨_, still⟩ := first.stands
    exact first.trans (ih still)

/-- The files are as the log has left them but for those at some locations: the log file was opened,
which changed the contents of no file, and then some records were written to it. -/
def LoggedApart (apart : List Location) (file? : Option Location) (records : List Record)
    (files after : Tree) : Prop :=
  ∃ opened, ChangesOnly file?.toList files opened ∧
    (∀ location, opened.contentsAt location = files.contentsAt location) ∧
    ChangesOnly apart (writeLines opened file? records) after

end Writing

namespace Journal

/-- The log file, if there is one, is there to be written to, and named from the root down. -/
def IsOpen (journal : Journal) : Prop :=
  ∀ location ∈ journal.sinks.file, File.Path.IsPlain location ∧
    ∃ contents, journal.files.node? location = some (.file contents)

/-- What records do that are written to an open log file. -/
theorem IsOpen.writes (isOpen : journal.IsOpen) (member : file ∈ journal.sinks.file)
    (records : List Record) :
    Writes journal.files file records (writeLines journal.files journal.sinks.file records) := by
  obtain ⟨plain, _, stands⟩ := isOpen file member
  rw [Option.mem_def.mp member]
  exact writes_writeLines plain stands records

theorem IsOpen.changes (isOpen : journal.IsOpen) (records : List Record) :
    ChangesWithin (LogRegion journal.files journal.sinks.file records) journal.files
      (writeLines journal.files journal.sinks.file records) := by
  cases file_eq : journal.sinks.file with
  | none => exact .refl _ _
  | some file => exact file_eq ▸ (isOpen.writes file_eq records).changes

/-- The journal after some records: the outputs are the same, and the records were written to the log
file, if there is one. -/
structure Continues (journal : Journal) (later : List Record) (next : Journal) : Prop where
  sinks_eq : next.sinks = journal.sinks
  records_eq : next.records = journal.records ++ later
  files_eq : next.files = writeLines journal.files journal.sinks.file later

namespace Continues

theorem refl (journal : Journal) : journal.Continues [] journal where
  sinks_eq := rfl
  records_eq := (List.append_nil _).symm
  files_eq := by cases journal.sinks.file <;> rfl

theorem trans (first : journal.Continues records next) (second : next.Continues later last) :
    journal.Continues (records ++ later) last where
  sinks_eq := second.sinks_eq.trans first.sinks_eq
  records_eq := by rw [second.records_eq, first.records_eq, List.append_assoc]
  files_eq := by rw [second.files_eq, first.files_eq, first.sinks_eq, writeLines_append]

theorem isOpen (continues : journal.Continues later next) (isOpen : journal.IsOpen) :
    next.IsOpen := by
  intro file member
  rw [continues.sinks_eq] at member
  rw [continues.files_eq]
  exact ⟨(isOpen file member).1, (isOpen.writes member later).stands⟩

theorem plain (continues : journal.Continues later next) (isOpen : journal.IsOpen)
    (plain : File.Path.IsPlain journal.files.current) : File.Path.IsPlain next.files.current := by
  rw [continues.files_eq]
  cases file_eq : journal.sinks.file with
  | none => exact plain
  | some file => exact file_eq ▸ (isOpen.writes file_eq later).plain plain

end Continues

theorem effect_setUp (journal : Journal) (plain : File.Path.IsPlain journal.files.current)
    (setup : Setup) :
    setup.Effect journal.files (journal.setUp setup).1.files (setup.start journal.files).2 := by
  have effect := setup.effect_start plain
  rw [setUp]
  split
  · rename_i started
    rw [started] at effect ⊢
    exact effect
  · rename_i started
    rw [started] at effect ⊢
    exact effect

/-- A setup leaves all files but its log file alone. -/
theorem changesOnly_setUp (journal : Journal) (plain : File.Path.IsPlain journal.files.current)
    (setup : Setup) :
    ChangesOnly (setup.location? journal.files.current).toList journal.files
      (journal.setUp setup).1.files :=
  (effect_setUp journal plain setup).changes

theorem records_setUp (journal : Journal) (setup : Setup) :
    (journal.setUp setup).1.records = journal.records := by
  rw [setUp]
  split <;> rfl

theorem isOpen_of_setUp (plain : File.Path.IsPlain journal.files.current)
    (started : journal.setUp setup = (next, .ok ())) :
    next.IsOpen ∧ next.sinks.file = setup.location? journal.files.current := by
  have effect := setup.effect_start plain
  rw [setUp] at started
  split at started
  · rename_i files sinks begun
    rw [begun] at effect
    obtain ⟨rfl, _⟩ := Prod.mk.inj started
    have file_eq := effect.file_eq sinks rfl
    refine ⟨fun location member => ⟨?_, effect.stands sinks rfl location member⟩, file_eq⟩
    obtain ⟨path, _, rfl⟩ := Option.map_eq_some_iff.mp (file_eq.symm.trans member)
    exact plain.normalize path
  · simp at started

theorem log_of_not_admits {record : Record} (dropped : journal.sinks.admits record = false) :
    journal.log record = journal := by
  rw [log, if_neg (by simp [dropped])]

/-- A record that is too much for the log file begins a new one. -/
theorem files_log_of_backUp {record : Record} {moved : Tree}
    (admitted : journal.sinks.admits record = true) (file_eq : journal.sinks.file = some file)
    (tooMuch : isTooMuch journal.files file record.fileLine = true)
    (backedUp : journal.files.backUp file backupCount = (moved, .ok ())) :
    (journal.log record).files = appendText moved file record.fileLine := by
  simp only [log, if_pos admitted, file_eq, writeLine, if_pos tooMuch, backedUp]

/-- What a record does that is let pass, and one that is not. -/
theorem exists_continues_log (journal : Journal) (record : Record) :
    ∃ later, journal.Continues later (journal.log record) := by
  cases admitted : journal.sinks.admits record with
  | false =>
    refine ⟨[], ?_⟩
    rw [log_of_not_admits admitted]
    exact .refl journal
  | true =>
    refine ⟨[record], ?_⟩
    rw [log, if_pos admitted]
    refine ⟨rfl, rfl, ?_⟩
    cases journal.sinks.file <;> rfl

theorem sinks_log (journal : Journal) (record : Record) :
    (journal.log record).sinks = journal.sinks := by
  rw [log]
  split <;> rfl

end Journal

end Determinizer.Log
