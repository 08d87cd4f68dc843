import Determinizer.Proofs.CommandLine.Settings
import Determinizer.Proofs.CommandLine.Warnings
import Determinizer.Proofs.Conversion.Language

/-! # What a run of the command line does

A run starts the log, works with checked settings and writes last. Everything on the way keeps the
files apart from the log file and, once that is full, its backups. So the text that is converted is
the one that stood in the input, and only the output is new at the end. What a run converts is what
the library converts.
-/

namespace Determinizer

/-- The text of a file is its bytes as UTF-8, each line end made a line feed. -/
theorem NFA.readText_eq_ok_iff {files : File.Tree} {path text : String} :
    NFA.readText files path = .ok text ↔
      ∃ decoded : String, files.read path = .ok decoded.toUTF8 ∧
        text = Text.withLineFeeds decoded := by
  rw [NFA.readText]
  split
  · rename_i unreadable
    simp [unreadable]
  · rename_i unreadable
    simp [unreadable]
  · rename_i contents readable
    rw [readable]
    simp only [Except.ok.injEq, ← Text.Utf8.decode_eq_ok_iff]
    split
    · rename_i invalid
      simp [invalid]
    · rename_i decoded valid
      simp [valid, eq_comm]

namespace CommandLine

open File (Location Tree)
open File.Tree (ChangesOnly ChangesWithin)
open Log (Journal Record)

variable {host : Host} {refusals : File.Refusals} {tool : DrawingTool} {files : Tree}
  {words : List String} {arguments : Arguments} {config : Config} {session next last : Session}
  {journal : Journal} {dfa : DFA} {input path : String} {output : Option String} {code : Nat}

section Steps

theorem Arguments.convert_eq_ok_iff : (arguments.convert config files input).result = .ok dfa ↔
    ∃ text nfa, NFA.readText files input = .ok text ∧
      (NFA.ofText config.strict text).result = .ok nfa ∧ (nfa.convert config).result = .ok dfa := by
  simp only [convert, NFA.ofFile, Outcome.result_bind_eq_ok_iff, Outcome.result_report_bind,
    Outcome.result_mapError_eq_ok_iff, Outcome.result_ofExcept, Outcome.result_pure,
    Except.ok.injEq, exists_eq_right]
  constructor
  · rintro ⟨nfa, ⟨text, stands, read⟩, converted⟩
    exact ⟨text, nfa, stands, read, converted⟩
  · rintro ⟨text, nfa, stands, read, converted⟩
    exact ⟨nfa, ⟨text, stands, read⟩, converted⟩

/-- A file that reads as an automaton is converted if the automaton is not too large. -/
theorem Arguments.exists_convert_of_read {text : String} {nfa : NFA}
    (readable : files.read input = .ok text.toUTF8)
    (reads : (NFA.ofText config.strict (Text.withLineFeeds text)).result = .ok nfa)
    (within : ¬ nfa.Exceeds config) :
    ∃ dfa, (arguments.convert config files input).result = .ok dfa := by
  obtain ⟨dfa, made⟩ := NFA.exists_convert_of_ofText reads within
  have stands := NFA.readText_eq_ok_iff.mpr ⟨text, readable, rfl⟩
  exact ⟨dfa, convert_eq_ok_iff.mpr ⟨_, nfa, stands, reads, made⟩⟩

/-- From one session to another nothing was done to the files but by the log. -/
def Session.OnlyLogs (session last : Session) : Prop :=
  ∃ later, last.journal.records = session.journal.records ++ later ∧
    last.files = Log.writeLines session.files session.journal.sinks.file later

theorem Session.onlyLogs_of_continues {later : List Record}
    (continues : session.journal.Continues later next.journal)
    (files_eq : last.files = next.files)
    (records_eq : last.journal.records = next.journal.records) : session.OnlyLogs last :=
  ⟨later, records_eq.trans continues.records_eq, files_eq.trans continues.files_eq⟩

/-- To log events is to write records. -/
theorem Session.exists_continues_logAll (host : Host) (session : Session) (events : List Event) :
    ∃ later, session.journal.Continues later (session.logAll host events).journal := by
  rw [logAll]
  generalize session.journal = journal
  induction events generalizing journal with
  | nil => exact ⟨[], .refl journal⟩
  | cons event rest ih =>
    obtain ⟨now, first⟩ :=
      journal.exists_continues_log (event.record (host.stamp journal.records.length event))
    obtain ⟨later, second⟩ := ih _
    exact ⟨now ++ later, first.trans second⟩

/-- Without a log file, events leave the whole tree alone. -/
theorem Session.files_logAll (host : Host) (none : session.journal.sinks.file = none)
    (events : List Event) : (session.logAll host events).files = session.files := by
  obtain ⟨_, continues⟩ := exists_continues_logAll host session events
  rw [files, continues.files_eq, none, Log.writeLines, files]

/-- With the drawing program at hand, drawing only logs, or breaks off without an initial state. -/
theorem draw_cases (host : Host) (session : Session) (dfa : DFA) (path : String) :
    draw host .available session dfa path = .error (session, .broken .noInitialState) ∨
      ∃ drawn later, draw host .available session dfa path = .ok drawn ∧
        session.journal.Continues later drawn.journal := by
  rw [draw]
  split
  · exact .inl rfl
  · rename_i rendering _
    let asked := { session with renderings := session.renderings ++ [rendering] }
    obtain ⟨later, continues⟩ :=
      Session.exists_continues_logAll host asked [.graphSaved rendering.picture]
    exact .inr ⟨_, later, rfl, continues⟩

theorem finish_of_replaceFile {text : String} {after : Tree} (written : dfa.toText? = some text)
    (replaced : session.files.replaceFile refusals path text.toUTF8 = (after, .ok ())) :
    ∃ last, finish refusals session dfa (some path) = (last, .exit 0) ∧ last.files = after ∧
      last.journal.records = session.journal.records := by
  simp only [finish, DFA.writeFile, written, replaced]
  exact ⟨_, rfl, rfl, rfl⟩

/-- The result is written as a whole, or the run breaks off and leaves the files as they were. -/
theorem finish_cases (plain : File.Path.IsPlain session.files.current) (refusals : File.Refusals)
    (dfa : DFA) (output : Option String) :
    (∃ last cause, finish refusals session dfa output = (last, .broken cause) ∧
        last.files = session.files ∧ last.journal.records = session.journal.records) ∨
      ∃ last path text, finish refusals session dfa output = (last, .exit 0) ∧
        output = some path ∧ dfa.toText? = some text ∧
        session.files.replaceFile refusals path text.toUTF8 = (last.files, .ok ()) ∧
        last.journal.records = session.journal.records := by
  cases output with
  | none => exact .inl ⟨_, _, rfl, rfl, rfl⟩
  | some path =>
    cases written : dfa.toText? with
    | none =>
      refine .inl ⟨session, .noInitialState, ?_, rfl, rfl⟩
      simp only [finish, DFA.writeFile, written]
      rfl
    | some text =>
      rcases replaced : session.files.replaceFile refusals path text.toUTF8 with ⟨after, fault | _⟩
      · have same := File.Tree.eq_of_replaceFile_error plain replaced
        refine .inl ⟨session.withFiles after, .output fault, ?_, same, rfl⟩
        simp only [finish, DFA.writeFile, written, replaced]
        rfl
      · obtain ⟨last, finished, rfl, records_eq⟩ := finish_of_replaceFile written replaced
        exact .inr ⟨last, path, text, finished, rfl, rfl, replaced, records_eq⟩

theorem work_of_no_input (none : arguments.input = none) :
    work host tool arguments config session = (session, .broken .noFileName) := by
  rw [work, none]

theorem work_eq_complain {error : Error} (host : Host) (tool : DrawingTool)
    (input_eq : arguments.input = some input)
    (refused : (arguments.convert config session.files input).result = .error (.error error)) :
    work host tool arguments config session =
      (session.logAll host (arguments.convert config session.files input).events).complain
        error.message 1 := by
  rw [work, input_eq]
  simp only [refused]

/-- An input that cannot be converted ends the work before anything is written, printed or drawn:
with exit code 1 for an error of the conversion, without one for a fault of the file system. -/
theorem work_of_error {failure : Failure} (host : Host) (tool : DrawingTool)
    (input_eq : arguments.input = some input)
    (failed : (arguments.convert config session.files input).result = .error failure) :
    ∃ last : Session, session.OnlyLogs last ∧
      (last.printed = session.printed ∧ last.renderings = session.renderings) ∧
      ((∃ error, failure = .error error ∧
          work host tool arguments config session = (last, .exit 1)) ∨
        ∃ fault, failure = .fault fault ∧
          work host tool arguments config session = (last, .broken (.input fault))) := by
  obtain ⟨_, logged⟩ := Session.exists_continues_logAll host session
    (arguments.convert config session.files input).events
  cases failure with
  | error cause =>
    let told := (session.logAll host
      (arguments.convert config session.files input).events).complain cause.message 1
    exact ⟨told.1, Session.onlyLogs_of_continues logged rfl rfl, ⟨rfl, rfl⟩,
      .inl ⟨cause, rfl, work_eq_complain host tool input_eq failed⟩⟩
  | fault fault =>
    rw [work, input_eq]
    simp only [failed]
    exact ⟨_, Session.onlyLogs_of_continues logged rfl rfl, ⟨rfl, rfl⟩, .inr ⟨fault, rfl, rfl⟩⟩

theorem work_eq_finish (input_eq : arguments.input = some input)
    (converted : (arguments.convert config session.files input).result = .ok dfa)
    (undrawn : nonempty arguments.graph = none) :
    work host tool arguments config session = finish host.refusals
      (session.logAll host (arguments.convert config session.files input).events) dfa
      arguments.output := by
  rw [work, input_eq]
  simp only [converted, undrawn]

/-- The output was written at the end of some work, after nothing but the log had written. -/
structure Session.WritesLast (host : Host) (session before last : Session) (dfa : DFA)
    (output text : String) : Prop where
  onlyLogs : session.OnlyLogs before
  plain : File.Path.IsPlain before.files.current
  written : dfa.toText? = some text
  replaced : before.files.replaceFile host.refusals output text.toUTF8 = (last.files, .ok ())
  records_eq : last.journal.records = before.journal.records

/-- Where the input is converted the output is written, or the work breaks off and nothing is done to
the files but by the log. -/
theorem work_of_converted (host : Host) (isOpen : session.journal.IsOpen)
    (plain : File.Path.IsPlain session.files.current) (input_eq : arguments.input = some input)
    (converted : (arguments.convert config session.files input).result = .ok dfa) :
    (∃ last cause, work host .available arguments config session = (last, .broken cause) ∧
        session.OnlyLogs last) ∨
      ∃ before last output text,
        work host .available arguments config session = (last, .exit 0) ∧
        arguments.output = some output ∧ session.WritesLast host before last dfa output text := by
  obtain ⟨_, logged⟩ := Session.exists_continues_logAll host session
    (arguments.convert config session.files input).events
  obtain ⟨before, later, continues, broken | finishes⟩ : ∃ before later,
      session.journal.Continues later before.journal ∧
        (work host .available arguments config session = (before, .broken .noInitialState) ∨
          work host .available arguments config session =
            finish host.refusals before dfa arguments.output) := by
    cases graph : nonempty arguments.graph with
    | none => exact ⟨_, _, logged, .inr (work_eq_finish input_eq converted graph)⟩
    | some path =>
      rw [work, input_eq]
      simp only [converted, graph]
      rcases draw_cases host
        (session.logAll host (arguments.convert config session.files input).events) dfa path with
        broken | ⟨drawn, _, drew, later⟩
      · exact ⟨_, _, logged, .inl (by simp only [broken])⟩
      · exact ⟨drawn, _, logged.trans later, .inr (by simp only [drew])⟩
  · exact .inl ⟨before, _, broken, Session.onlyLogs_of_continues continues rfl rfl⟩
  · rw [finishes]
    have plainBefore : File.Path.IsPlain before.files.current := continues.plain isOpen plain
    rcases finish_cases plainBefore host.refusals dfa arguments.output with
      ⟨last, cause, broken, files_eq, records_eq⟩ |
      ⟨last, output, text, finished, output_eq, written, replaced, records_eq⟩
    · exact .inl ⟨last, cause, broken, Session.onlyLogs_of_continues continues files_eq records_eq⟩
    · exact .inr ⟨before, last, output, text, finished, output_eq,
        { onlyLogs := Session.onlyLogs_of_continues continues rfl rfl
          plain := plainBefore
          written
          replaced
          records_eq }⟩

/-- Work that ends well has converted the input and then written the output. -/
theorem exists_of_work (isOpen : session.journal.IsOpen)
    (plain : File.Path.IsPlain session.files.current)
    (ended : work host .available arguments config session = (last, .exit 0)) :
    ∃ input output dfa before text,
      arguments.input = some input ∧ arguments.output = some output ∧
      (arguments.convert config session.files input).result = .ok dfa ∧
      session.WritesLast host before last dfa output text := by
  cases input_eq : arguments.input with
  | none => simp [work_of_no_input input_eq] at ended
  | some input =>
    cases converted : (arguments.convert config session.files input).result with
    | error failure =>
      obtain ⟨_, _, _, ⟨_, _, failed⟩ | ⟨_, _, broken⟩⟩ :=
        work_of_error host .available input_eq converted
      · simp [failed] at ended
      · simp [broken] at ended
    | ok dfa =>
      rcases work_of_converted host isOpen plain input_eq converted with
        ⟨_, _, broken, _⟩ | ⟨before, _, output, text, finished, output_eq, writes⟩
      · simp [broken] at ended
      · obtain rfl := (Prod.mk.inj (finished.symm.trans ended)).1
        exact ⟨input, output, dfa, before, text, rfl, output_eq, converted, writes⟩

/-- With arguments that are read, a run starts the log, checks the settings and works with them.
Until then it has printed and drawn nothing. -/
theorem run_cases (read : Arguments.read words = .ok arguments) (host : Host)
    (tool : DrawingTool) (files : Tree) :
    (∃ (last : Session) (fault : Log.SetupFault),
        (Journal.ofFiles files).setUp arguments.logSetup = (last.journal, .error fault) ∧
        run host tool files words = (last, .broken (.logSetup fault))) ∨
      ∃ session : Session,
        (Journal.ofFiles files).setUp arguments.logSetup = (session.journal, .ok ()) ∧
        (session.printed = "" ∧ session.renderings = []) ∧
        ((∃ fault, arguments.config = .error fault ∧
            run host tool files words = session.complain fault.message 2) ∨
          ∃ config, arguments.config = .ok config ∧
            run host tool files words = work host tool arguments config session) := by
  simp only [run, read, Session.ofFiles]
  rcases (Journal.ofFiles files).setUp arguments.logSetup with ⟨journal, fault | _⟩
  · exact .inl ⟨⟨journal, "", []⟩, fault, rfl, rfl⟩
  · refine .inr ⟨⟨journal, "", []⟩, rfl, ⟨rfl, rfl⟩, ?_⟩
    cases arguments.config with
    | error fault => exact .inl ⟨fault, rfl, rfl⟩
    | ok config => exact .inr ⟨config, rfl, rfl⟩

/-- With arguments that ask for settings, a run works with these unless the log cannot be started. -/
theorem run_cases_of_askFor (read : Arguments.read words = .ok arguments)
    (asked : arguments.AskFor config) (host : Host) (tool : DrawingTool)
    (files : Tree) :
    (∃ (last : Session) (fault : Log.SetupFault),
        (Journal.ofFiles files).setUp arguments.logSetup = (last.journal, .error fault) ∧
        run host tool files words = (last, .broken (.logSetup fault))) ∨
      ∃ session : Session,
        (Journal.ofFiles files).setUp arguments.logSetup = (session.journal, .ok ()) ∧
        run host tool files words = work host tool arguments config session := by
  have valid := Arguments.config_eq_ok_iff.mpr asked
  rcases run_cases read host tool files with failed |
    ⟨session, started, _, ⟨_, invalid, _⟩ | ⟨other, settings, working⟩⟩
  · exact .inl failed
  · rw [valid] at invalid
    contradiction
  · obtain rfl := Except.ok.inj (valid.symm.trans settings)
    exact .inr ⟨session, started, working⟩

end Steps

section Agreement

/-- The location of the log file, if one is asked for. -/
def Arguments.logLocations (arguments : Arguments) (current : Location) : List Location :=
  (arguments.logSetup.location? current).toList

/-- What the log may change that is asked for, while some records are let pass: its file and, if these
fill it, its backups. -/
def Arguments.logRegion (arguments : Arguments) (files : Tree) (records : List Record) :
    Location → Prop :=
  Log.LogRegion files (arguments.logSetup.location? files.current) records

/-- But for some files a run has done nothing to the tree that the log did not do: it opened the log
file and wrote the records of the run. -/
def Arguments.LoggedApart (arguments : Arguments) (apart : List Location) (files : Tree)
    (last : Session) : Prop :=
  Log.LoggedApart apart (arguments.logSetup.location? files.current) last.journal.records files
    last.files

/-- The output has the text form of the conversion of the text that stood in the input, with the
settings asked for. But for the output, the files are as the log has left them, so the temporary file
is gone. No other file than the output, the log file and, if that was filled, its backups has changed
or been made. -/
structure Arguments.Fulfilled (arguments : Arguments) (files : Tree) (last : Session)
    (config : Config) (input output decoded text : String) : Prop where
  asked : arguments.AskFor config
  input_eq : arguments.input = some input
  output_eq : arguments.output = some output
  stood : files.node? (File.Path.normalize files.current input) = some (.file decoded.toUTF8)
  converted : (convertText config (Text.withLineFeeds decoded)).result = .ok text
  written : last.files.read output = .ok text.toUTF8
  logged : arguments.LoggedApart [File.Path.normalize last.files.current output] files last
  changes : ChangesWithin
    (fun location => location = File.Path.normalize last.files.current output ∨
      arguments.logRegion files last.journal.records location) files last.files

theorem Arguments.logRegion_of_mem {records : List Record} {location : Location}
    (member : location ∈ arguments.logLocations files.current) :
    arguments.logRegion files records location :=
  ⟨location, Option.mem_toList.mp member, .inl rfl⟩

theorem Arguments.not_logRegion {records : List Record} {location : Location}
    (unlogged : arguments.logSetup.file = none) : ¬ arguments.logRegion files records location := by
  rintro ⟨file, member, _⟩
  simp [Log.Setup.location?, unlogged] at member

/-- A log that was started: no record has passed yet, and nothing but the log file has changed, not
even that holds anything new. -/
structure Arguments.Opened (arguments : Arguments) (files : Tree) (journal : Journal) : Prop where
  isOpen : journal.IsOpen
  file_eq : journal.sinks.file = arguments.logSetup.location? files.current
  records_eq : journal.records = []
  changes : ChangesOnly (arguments.logLocations files.current) files journal.files
  contents_eq : ∀ location, journal.files.contentsAt location = files.contentsAt location

theorem opened_of_setUp (plain : File.Path.IsPlain files.current)
    (started : (Journal.ofFiles files).setUp arguments.logSetup = (journal, .ok ())) :
    arguments.Opened files journal := by
  obtain ⟨isOpen, file_eq⟩ := Journal.isOpen_of_setUp plain started
  have effect := Journal.effect_setUp (Journal.ofFiles files) plain arguments.logSetup
  have records_eq := Journal.records_setUp (Journal.ofFiles files) arguments.logSetup
  rw [started] at effect records_eq
  exact ⟨isOpen, file_eq, records_eq, effect.changes, effect.contents_eq⟩

/-- What a run has done to the files until something but the log changes them: all was done by the
log, and so within what the log may change. -/
theorem Arguments.Opened.of_onlyLogs (opened : arguments.Opened files session.journal)
    (onlyLogs : session.OnlyLogs next) :
    arguments.LoggedApart [] files next ∧
      ChangesWithin (arguments.logRegion files next.journal.records) files next.files := by
  obtain ⟨later, records_eq, files_eq⟩ := onlyLogs
  rw [opened.records_eq, List.nil_append] at records_eq
  refine ⟨⟨session.files, opened.changes, opened.contents_eq, ?_⟩, ?_⟩
  · rw [files_eq, records_eq, opened.file_eq]
    exact .refl _ _
  · rw [files_eq, records_eq]
    refine (opened.changes.within fun _ => logRegion_of_mem).trans
      ((opened.isOpen.changes later).mono ?_)
    rintro location ⟨file, member, touched⟩
    refine ⟨file, opened.file_eq ▸ member, touched.imp id ?_⟩
    rintro ⟨fills, inside⟩
    refine ⟨?_, inside⟩
    rw [Log.Fills, ← opened.contents_eq file]
    exact fills

/-- What a run has done to the files that has changed one more file after the log. -/
theorem Arguments.Opened.of_changesOnly {more : Location}
    (opened : arguments.Opened files session.journal) (onlyLogs : session.OnlyLogs next)
    (records_eq : last.journal.records = next.journal.records)
    (changes : ChangesOnly [more] next.files last.files) :
    arguments.LoggedApart [more] files last ∧
      ChangesWithin (fun location => location = more ∨
        arguments.logRegion files last.journal.records location) files last.files := by
  obtain ⟨⟨begun, opens, contents_eq, written⟩, changed⟩ := opened.of_onlyLogs onlyLogs
  rw [← records_eq] at written changed
  constructor
  · exact ⟨begun, opens, contents_eq, (written.mono (List.nil_subset _)).trans changes⟩
  · exact (changed.mono fun _ => .inr).trans (changes.within (by simp))

/-- A run that ends well has written the conversion of the text that stood in the input. -/
theorem fulfilled_of_run (read : Arguments.read words = .ok arguments)
    (plain : File.Path.IsPlain files.current)
    (apart : ∀ path, arguments.input = some path ∨ arguments.output = some path →
      File.Path.normalize files.current path ∉ arguments.logLocations files.current)
    (ended : run host .available files words = (last, .exit 0)) :
    ∃ config input output decoded text,
      arguments.Fulfilled files last config input output decoded text := by
  rcases run_cases read host .available files with ⟨_, _, _, broken⟩ |
    ⟨session, started, _, ⟨_, _, refused⟩ | ⟨config, valid, working⟩⟩
  · simp [broken] at ended
  · simp [refused, Session.complain] at ended
  rw [working] at ended
  have opened := opened_of_setUp plain started
  have plainOpened : File.Path.IsPlain session.files.current := opened.changes.current_eq ▸ plain
  obtain ⟨input, output, dfa, before, text, input_eq, output_eq, converted, writes⟩ :=
    exists_of_work opened.isOpen plainOpened ended
  obtain ⟨_, nfa, stands, read, made⟩ := Arguments.convert_eq_ok_iff.mp converted
  obtain ⟨decoded, readable, rfl⟩ := NFA.readText_eq_ok_iff.mp stands
  have replacing := File.Tree.changesOnly_of_replaceFile writes.plain writes.replaced
  rw [← replacing.current_eq] at replacing
  obtain ⟨logged, changes⟩ := opened.of_changesOnly writes.onlyLogs writes.records_eq replacing
  exact ⟨config, input, output, decoded, text,
    { asked := Arguments.config_eq_ok_iff.mp valid
      input_eq
      output_eq
      stood := opened.changes.node?_of_read (apart input (.inl input_eq)) readable
      converted := convertText_eq_ok_of_convert read made writes.written
      written := File.Tree.read_replaceFile writes.replaced
      logged
      changes }⟩

/-- A run that can convert what stands in its input does not complain. -/
theorem eq_zero_of_run {decoded text : String} (read : Arguments.read words = .ok arguments)
    (plain : File.Path.IsPlain files.current) (input_eq : arguments.input = some input)
    (apart : File.Path.normalize files.current input ∉ arguments.logLocations files.current)
    (asked : arguments.AskFor config) (readable : files.read input = .ok decoded.toUTF8)
    (converts : (convertText config (Text.withLineFeeds decoded)).result = .ok text)
    (ended : (run host .available files words).2 = .exit code) : code = 0 := by
  rcases run_cases_of_askFor read asked host .available files with ⟨_, _, _, broken⟩ |
    ⟨session, started, working⟩
  · simp [broken] at ended
  rw [working] at ended
  have opened := opened_of_setUp plain started
  obtain ⟨nfa, dfa, reads, made, _⟩ := exists_of_convertText converts
  have stands : NFA.readText session.files input = .ok (Text.withLineFeeds decoded) :=
    NFA.readText_eq_ok_iff.mpr ⟨decoded, opened.changes.read_eq_ok apart readable, rfl⟩
  have converted : (arguments.convert config session.files input).result = .ok dfa :=
    Arguments.convert_eq_ok_iff.mpr ⟨_, nfa, stands, reads, made⟩
  have plainOpened : File.Path.IsPlain session.files.current := opened.changes.current_eq ▸ plain
  rcases work_of_converted host opened.isOpen plainOpened input_eq converted with
    ⟨_, _, broken, _⟩ | ⟨_, _, _, _, finished, _⟩
  · simp [broken] at ended
  · rw [finished] at ended
    exact (Ending.exit.inj ended).symm

/-- Without a picture, a run whose input can be converted comes to its last stage once it has logged
the conversion. -/
theorem exists_run_eq_finish (host : Host) (tool : DrawingTool)
    (read : Arguments.read words = .ok arguments)
    (starts : (Journal.ofFiles files).setUp arguments.logSetup = (journal, .ok ()))
    (undrawn : nonempty arguments.graph = none) (asked : arguments.AskFor config)
    (input_eq : arguments.input = some input)
    (converted : (arguments.convert config journal.files input).result = .ok dfa) :
    ∃ session : Session, session.journal = journal ∧ run host tool files words =
      finish host.refusals
        (session.logAll host (arguments.convert config journal.files input).events) dfa
        arguments.output := by
  rcases run_cases_of_askFor read asked host tool files with ⟨_, _, failed, _⟩ |
    ⟨session, started, working⟩
  · simp [starts] at failed
  obtain rfl : journal = session.journal := (Prod.mk.inj (starts.symm.trans started)).1
  exact ⟨session, rfl, working.trans (work_eq_finish input_eq converted undrawn)⟩

/-- Without a log file and a picture, a run ends well if the input can be converted and the output
can be replaced. -/
theorem exists_run_of_converted (tool : DrawingTool)
    (read : Arguments.read words = .ok arguments)
    (starts : (Journal.ofFiles files).setUp arguments.logSetup = (journal, .ok ()))
    (unlogged : journal.sinks.file = none) (undrawn : nonempty arguments.graph = none)
    (asked : arguments.AskFor config) (input_eq : arguments.input = some input)
    (output_eq : arguments.output = some path)
    (converted : (arguments.convert config journal.files input).result = .ok dfa)
    (replaces : (journal.files.replaceFile host.refusals path ByteArray.empty).2 = .ok ()) :
    ∃ last, run host tool files words = (last, .exit 0) := by
  obtain ⟨session, rfl, finishing⟩ :=
    exists_run_eq_finish host tool read starts undrawn asked input_eq converted
  obtain ⟨_, nfa, _, _, made⟩ := Arguments.convert_eq_ok_iff.mp converted
  obtain ⟨text, written⟩ := NFA.exists_toText?_of_convert made
  let before := session.logAll host (arguments.convert config session.journal.files input).events
  have files_eq : before.files = session.files := Session.files_logAll host unlogged _
  have replacesText : (before.files.replaceFile host.refusals path text.toUTF8).2 = .ok () := by
    rw [files_eq, File.Tree.replaceFile_result_eq _ _ _ _ ByteArray.empty]
    exact replaces
  obtain ⟨last, finished, _⟩ := finish_of_replaceFile written (Prod.ext rfl replacesText)
  rw [finishing, output_eq]
  exact ⟨last, finished⟩

/-- The command line agrees with the conversion of texts. A run that ends well has written what the
text in its input is converted to, also over the input itself, and has changed no other file but the
log file, if that is neither the input nor the output, and its backups, if the records of the run
filled it. A run whose input can be converted with valid settings ends well if it ends by itself. The
current folder is named as systems name it, from the root down. -/
theorem run_agrees_with_convertText (read : Arguments.read words = .ok arguments)
    (plain : File.Path.IsPlain files.current)
    (apart : ∀ path, arguments.input = some path ∨ arguments.output = some path →
      File.Path.normalize files.current path ∉ arguments.logLocations files.current)
    (host : Host) :
    (∀ last, run host .available files words = (last, .exit 0) →
      ∃ config input output decoded text,
        arguments.Fulfilled files last config input output decoded text) ∧
    ∀ config input decoded text, arguments.AskFor config → arguments.input = some input →
      files.read input = .ok decoded.toUTF8 →
      (convertText config (Text.withLineFeeds decoded)).result = .ok text →
      ∀ code, (run host .available files words).2 = .exit code → code = 0 := by
  refine ⟨fun last ended => fulfilled_of_run read plain apart ended, ?_⟩
  intro config input decoded text asked input_eq readable converts code ended
  exact eq_zero_of_run read plain input_eq (apart input (.inl input_eq)) asked readable converts ended

/-- A host that refuses nothing and stamps all records alike. -/
def steadyHost : Host := ⟨File.noRefusals, fun _ _ => ⟨"8:00", "read:1"⟩⟩

private def inPlaceWords : List String :=
  ["a.txt", "-v", "./a.txt", "--policy", "total", "--lenient", "--max-states", "0", "-a", "1", "0"]

private def inPlaceArguments : Arguments where
  input := some "a.txt"
  output := some "./a.txt"
  alphabet := ["1", "0"]
  policy := some .total
  lenient := true
  maxStates := some 0
  graph := none
  showSubsets := false
  verbose := true
  logFile := none

/-- An automaton with line ends of two kinds and a short line. -/
private def inPlaceText : String := "A B\r\nA\rB\r\nA 0 B\nA 1\n"

private def inPlaceFiles : Tree :=
  (Tree.ofCurrent ["work"]).put ["work", "a.txt"] (.file inPlaceText.toUTF8)

private def inPlaceRead : NFA where
  states := ["A", "B"]
  initial := "A"
  finals := ["B"]
  edges := Table.ofList [(("A", "0"), {"B"})]
  sources_declared := by decide +kernel

theorem run_agrees_with_convertText_inPlace :
    Arguments.read inPlaceWords = .ok inPlaceArguments ∧
      (∃ last, run steadyHost .available inPlaceFiles inPlaceWords = (last, .exit 0) ∧
        ∃ config input output decoded text,
          inPlaceArguments.Fulfilled inPlaceFiles last config input output decoded text) ∧
      ∃ config text, inPlaceArguments.AskFor config ∧
        (convertText config (Text.withLineFeeds inPlaceText)).result = .ok text ∧
        ∀ code, (run steadyHost .available inPlaceFiles inPlaceWords).2 = .exit code →
          code = 0 := by
  have read : Arguments.read inPlaceWords = .ok inPlaceArguments := by decide +kernel
  have plain : File.Path.IsPlain inPlaceFiles.current := by
    rintro name (_ | ⟨_, ⟨⟩⟩)
    exact ⟨by decide, by decide⟩
  have agrees := run_agrees_with_convertText read plain (fun _ _ => List.not_mem_nil)
    steadyHost
  obtain ⟨config, asked⟩ : ∃ config, inPlaceArguments.AskFor config :=
    ⟨_, Arguments.config_eq_ok_iff.mp rfl⟩
  have located : inPlaceFiles.locate "a.txt" = .ok ["work", "a.txt"] := by decide +kernel
  have stands : inPlaceFiles.node? ["work", "a.txt"] = some (.file inPlaceText.toUTF8) := by
    rw [inPlaceFiles, File.Tree.node?_put (List.cons_ne_nil _ _), if_pos rfl]
  have readable : inPlaceFiles.read "a.txt" = .ok inPlaceText.toUTF8 :=
    File.Tree.read_of_locate located stands
  have reads : (NFA.ofText config.strict (Text.withLineFeeds inPlaceText)).result =
      .ok inPlaceRead := by
    rw [asked.strict_eq]
    decide +kernel
  have within : ¬ inPlaceRead.Exceeds config := by
    rintro ⟨limit, limited, _⟩
    simp [asked.unlimited_iff.mpr (.inr rfl)] at limited
  obtain ⟨dfa, made⟩ := NFA.exists_convert_of_ofText reads within
  obtain ⟨text, written⟩ := NFA.exists_toText?_of_convert made
  have converts := convertText_eq_ok_of_convert reads made written
  refine ⟨read, ?_, config, text, asked, converts, agrees.2 _ _ _ _ asked rfl readable converts⟩
  have starts : (Journal.ofFiles inPlaceFiles).setUp inPlaceArguments.logSetup =
      (⟨inPlaceFiles, "", ⟨.debug, true, none⟩, []⟩, .ok ()) := rfl
  have converted : (inPlaceArguments.convert config inPlaceFiles "a.txt").result = .ok dfa :=
    Arguments.convert_eq_ok_iff.mpr
      ⟨_, _, NFA.readText_eq_ok_iff.mpr ⟨_, readable, rfl⟩, reads, made⟩
  have replaces : (inPlaceFiles.replaceFile steadyHost.refusals "./a.txt" ByteArray.empty).2 = .ok () := by
    decide +kernel
  obtain ⟨last, ended⟩ := exists_run_of_converted .available read starts rfl rfl asked rfl rfl
    converted replaces
  exact ⟨last, ended, agrees.1 last ended⟩

end Agreement

section FullLog

/-- A log file that no line has room in. -/
def fullLog : ByteArray := ⟨(Array.replicate (Log.sizeLimit - 1) 120).push 10⟩

def fullLogFiles (text : String) : Tree :=
  ((Tree.ofCurrent ["work"]).put ["work", "a.txt"] (.file text.toUTF8)).put ["work", "app.log"]
    (.file fullLog)

def fullLogWords : List String :=
  ["a.txt", "b.txt", "--lenient", "--max-states", "0", "--log-file", "app.log"]

def fullLogArguments : Arguments where
  input := some "a.txt"
  output := some "b.txt"
  alphabet := ["0", "1"]
  policy := some .sparse
  lenient := true
  maxStates := some 0
  graph := none
  showSubsets := false
  verbose := false
  logFile := some "app.log"

theorem read_fullLogWords : Arguments.read fullLogWords = .ok fullLogArguments := by decide +kernel

def fullLogJournal (text : String) : Journal :=
  ⟨fullLogFiles text, "", ⟨.warning, true, some ["work", "app.log"]⟩, []⟩

theorem setUp_fullLog (text : String) :
    (Journal.ofFiles (fullLogFiles text)).setUp fullLogArguments.logSetup =
      (fullLogJournal text, .ok ()) := by
  have setup_eq : fullLogArguments.logSetup = ⟨"WARNING", some "app.log", true⟩ := rfl
  have level_eq : Log.Level.ofThreshold? "WARNING" = some .warning := rfl
  have made : Log.makeLogFolder (fullLogFiles text) "app.log" = (fullLogFiles text, .ok ()) := rfl
  have located : File.Path.normalize (fullLogFiles text).current "app.log" = ["work", "app.log"] :=
    rfl
  have looked : Tree.checkLocation (File.Path.normalize (fullLogFiles text).current "app.log") =
      .ok () := by
    rw [located]
    rfl
  have found : (fullLogFiles text).follow []
      (File.Path.normalize (fullLogFiles text).current "app.log") = .ok ["work", "app.log"] := by
    rw [located]
    rfl
  have stands : (fullLogFiles text).node? ["work", "app.log"] = some (.file fullLog) := rfl
  have opens := Log.openLogFile_of_file looked found stands
  have begun : fullLogArguments.logSetup.start (fullLogFiles text) =
      (fullLogFiles text, .ok (fullLogJournal text).sinks) := by
    simp only [setup_eq, Log.Setup.start, level_eq, made, opens, Option.isNone_some, Bool.and_false,
      Bool.false_eq_true, if_false]
    rfl
  rw [Journal.setUp, Journal.ofFiles, begun]
  rfl

/-- The files after a warning was written to the full log. -/
def fullLogWritten (text : String) (warning : Event) : Tree :=
  Log.appendText ((fullLogFiles text).backUp ["work", "app.log"] Log.backupCount).1
    ["work", "app.log"] (warning.record (steadyHost.stamp 0 warning)).fileLine

theorem files_logAll_fullLog {text : String} {warning : Event} {events : List Event}
    (journal_eq : session.journal = fullLogJournal text)
    (warned : events.filter Event.warns = [warning]) :
    (session.logAll steadyHost events).files = fullLogWritten text warning := by
  have size_eq : fullLog.size = Log.sizeLimit := by
    rw [fullLog, ByteArray.size, Array.size_push, Array.size_replicate]
    decide +kernel
  have stands : (fullLogFiles text).node? ["work", "app.log"] = some (.file fullLog) := rfl
  have tooMuch (line : String) : Log.isTooMuch (fullLogFiles text) ["work", "app.log"] line = true := by
    rw [Log.isTooMuch, decide_eq_true_iff, File.Tree.contentsAt_of_node? stands, size_eq]
    exact Nat.le_add_right ..
  have backedUp : (fullLogFiles text).backUp ["work", "app.log"] Log.backupCount =
      (((fullLogFiles text).backUp ["work", "app.log"] Log.backupCount).1, .ok ()) := rfl
  obtain ⟨journal, printed, renderings⟩ := session
  obtain rfl : journal = fullLogJournal text := journal_eq
  exact Session.files_logAll_of_backUp rfl rfl warned (tooMuch _) backedUp

/-- The full log has become the first backup, where nothing stood before. -/
theorem not_changesOnly_of_fullLogWritten {text : String} {warning : Event} {apart more : List Location}
    {after : Tree} (changes : ChangesOnly more (fullLogWritten text warning) after)
    (notBackup : ["work", "app.log.1"] ∉ apart) (notMore : ["work", "app.log.1"] ∉ more) :
    ¬ ChangesOnly apart (fullLogFiles text) after := by
  intro only
  have backup : (fullLogWritten text warning).node? ["work", "app.log.1"] = some (.file fullLog) := rfl
  have stood := (only.files _ notBackup fullLog).mp ((changes.files _ notMore fullLog).mpr backup)
  have free : (fullLogFiles text).node? ["work", "app.log.1"] = none := rfl
  rw [free] at stood
  contradiction

theorem isPlain_fullLogFiles (text : String) : File.Path.IsPlain (fullLogFiles text).current := by
  rintro name (_ | ⟨_, ⟨⟩⟩)
  exact ⟨by decide, by decide⟩

private def convertedText : String := "A B\nA\nB\nbad\nA 0 B\n"

private def convertedRead : NFA where
  states := ["A", "B"]
  initial := "A"
  finals := ["B"]
  edges := Table.ofList [(("A", "0"), {"B"})]
  sources_declared := by decide +kernel

/-- A run that ends well has filled its log, and so has changed another file than the output and the
log file. -/
theorem run_backs_up_full_log :
    Arguments.read fullLogWords = .ok fullLogArguments ∧
      File.Path.IsPlain (fullLogFiles convertedText).current ∧
      (∀ path, fullLogArguments.input = some path ∨ fullLogArguments.output = some path →
        File.Path.normalize (fullLogFiles convertedText).current path ∉
          fullLogArguments.logLocations (fullLogFiles convertedText).current) ∧
      ∃ last, run steadyHost .available (fullLogFiles convertedText) fullLogWords =
          (last, .exit 0) ∧
        ¬ ChangesOnly (File.Path.normalize (fullLogFiles convertedText).current "b.txt" ::
            fullLogArguments.logLocations (fullLogFiles convertedText).current)
          (fullLogFiles convertedText) last.files := by
  have read := read_fullLogWords
  obtain ⟨config, asked⟩ : ∃ config, fullLogArguments.AskFor config :=
    ⟨_, Arguments.config_eq_ok_iff.mp rfl⟩
  have readable : (fullLogFiles convertedText).read "a.txt" = .ok convertedText.toUTF8 := rfl
  have reads : (NFA.ofText config.strict (Text.withLineFeeds convertedText)).result =
      .ok convertedRead := by
    rw [asked.strict_eq]
    decide +kernel
  have skips : (NFA.ofText config.strict (Text.withLineFeeds convertedText)).warnings =
      [.lineSkipped 4 "bad"] := by
    rw [asked.strict_eq]
    decide +kernel
  have within : ¬ convertedRead.Exceeds config := by
    rintro ⟨limit, limited, _⟩
    simp [asked.unlimited_iff.mpr (.inr rfl)] at limited
  have inside : (convertedRead.symbolsOutside config.alphabet).isEmpty = true := by
    rw [asked.alphabet_eq]
    decide +kernel
  obtain ⟨dfa, converted⟩ := Arguments.exists_convert_of_read readable reads within
  obtain ⟨session, journal_eq, finishing⟩ := exists_run_eq_finish steadyHost .available read
    (setUp_fullLog convertedText) rfl asked rfl converted
  have warned : (fullLogArguments.convert config (fullLogFiles convertedText) "a.txt").warnings =
      [.lineSkipped 4 "bad"] := by
    rw [Arguments.warnings_convert readable reads, skips, NFA.warnings_convert within,
      if_pos inside, List.append_nil]
  let before := session.logAll steadyHost
    (fullLogArguments.convert config (fullLogFiles convertedText) "a.txt").events
  have logged : before.files = fullLogWritten convertedText (.lineSkipped 4 "bad") :=
    files_logAll_fullLog journal_eq warned
  obtain ⟨_, _, _, _, made⟩ := Arguments.convert_eq_ok_iff.mp converted
  obtain ⟨text, written⟩ := NFA.exists_toText?_of_convert made
  have replaces : (before.files.replaceFile File.noRefusals "b.txt" text.toUTF8).2 = .ok () := by
    rw [logged, File.Tree.replaceFile_result_eq _ _ _ _ ByteArray.empty]
    decide +kernel
  obtain ⟨last, finished, files_eq, _⟩ := finish_of_replaceFile written (Prod.ext rfl replaces)
  have plain := isPlain_fullLogFiles convertedText
  have plainBefore : File.Path.IsPlain before.files.current := by rwa [logged]
  have replacing := File.Tree.changesOnly_of_replaceFile plainBefore (Prod.ext files_eq.symm replaces)
  rw [logged] at replacing
  refine ⟨read, plain, ?_, last, finishing.trans finished,
    not_changesOnly_of_fullLogWritten replacing (by decide) (by decide)⟩
  rintro path (named | named) <;> obtain rfl := Option.some.inj named <;> decide

end FullLog

end CommandLine

end Determinizer
