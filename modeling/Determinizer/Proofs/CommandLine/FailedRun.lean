import Determinizer.Proofs.CommandLine.Run

/-! # A failed run changes nothing

A run that does not end well leaves every file but the log file as it was and adds none: what it
writes before the result is complete is taken away again. Where its records fill the log file, the
backups of that file change as well. If it ends by itself it has printed and drawn nothing. The exit
code tells whether the settings or the input were refused. The drawing program is at hand and writes
no files of its own.
-/

namespace Determinizer.CommandLine

open File (Location Tree)
open File.Tree (ChangesOnly ChangesWithin)
open Log (Journal Record)

variable {host : Host} {refusals : File.Refusals} {files : Tree} {words : List String} {arguments : Arguments}
  {config : Config} {session last : Session} {ending : Ending} {journal : Journal}
  {tool : DrawingTool}

/-- The location of the log file that a command line asks for, if it can be read. -/
def logFile? (words : List String) (current : Location) : Option Location :=
  match Arguments.read words with
  | .ok arguments => arguments.logSetup.location? current
  | .error _ => none

/-- The input is refused: with valid settings, it cannot be read, parsed or converted. -/
def Arguments.InputRefused (arguments : Arguments) (files : Tree) : Prop :=
  ∃ config input error, arguments.AskFor config ∧ arguments.input = some input ∧
    (arguments.convert config files input).result = .error (.error error)

/-- How a run ends without success, and why. An exit code stands for refused settings or a refused
input; all else breaks the run off. -/
inductive FailsFor (words : List String) (files : Tree) : Ending → Prop
  | usage {stop : Stop} {code : Nat} (unread : Arguments.read words = .error stop) :
      FailsFor words files (.usage code)
  | log {arguments : Arguments} {journal : Journal} {fault : Log.SetupFault}
      (read : Arguments.read words = .ok arguments)
      (unstarted : (Journal.ofFiles files).setUp arguments.logSetup = (journal, .error fault)) :
      FailsFor words files (.broken (.logSetup fault))
  | settings {arguments : Arguments} {journal : Journal}
      (read : Arguments.read words = .ok arguments)
      (started : (Journal.ofFiles files).setUp arguments.logSetup = (journal, .ok ()))
      (invalid : ∀ config, ¬ arguments.AskFor config) :
      FailsFor words files (.exit 2)
  | input {arguments : Arguments} {journal : Journal}
      (read : Arguments.read words = .ok arguments)
      (started : (Journal.ofFiles files).setUp arguments.logSetup = (journal, .ok ()))
      (refused : arguments.InputRefused journal.files) :
      FailsFor words files (.exit 1)
  | work {arguments : Arguments} {journal : Journal} {config : Config} {cause : Break}
      (read : Arguments.read words = .ok arguments)
      (started : (Journal.ofFiles files).setUp arguments.logSetup = (journal, .ok ()))
      (asked : arguments.AskFor config) (accepted : ¬ arguments.InputRefused journal.files) :
      FailsFor words files (.broken cause)

/-- All that was done to the files was done by the log: they are as it has left them, and no file has
changed or been made but the log file and, if that was filled, its backups. -/
structure LeftByLog (words : List String) (files : Tree) (last : Session) : Prop where
  logged : Log.LoggedApart [] (logFile? words files.current) last.journal.records files last.files
  changes : ChangesWithin
    (Log.LogRegion files (logFile? words files.current) last.journal.records) files last.files

/-- A run without success has left the files to the log, so there is neither an output nor a temporary
file of it. If it ends with an exit code, nothing was printed or drawn. -/
structure FailsCleanly (words : List String) (files : Tree) (last : Session) (ending : Ending) :
    Prop where
  cause : FailsFor words files ending
  leftByLog : LeftByLog words files last
  printed_eq : ∀ code, ending = .exit code → last.printed = ""
  renderings_eq : ∀ code, ending = .exit code → last.renderings = []

section Stages

variable {input : String}

theorem Arguments.eq_of_askFor {other : Config} (asked : arguments.AskFor config)
    (again : arguments.AskFor other) : other = config :=
  Except.ok.inj ((config_eq_ok_iff.mpr again).symm.trans (config_eq_ok_iff.mpr asked))

/-- With the settings and the input known, the input is refused for an error of its conversion. -/
theorem Arguments.inputRefused_iff (asked : arguments.AskFor config)
    (input_eq : arguments.input = some input) : arguments.InputRefused files ↔
      ∃ error, (arguments.convert config files input).result = .error (.error error) := by
  constructor
  · rintro ⟨other, named, error, again, named_eq, refused⟩
    obtain rfl := eq_of_askFor asked again
    obtain rfl := Option.some.inj (input_eq.symm.trans named_eq)
    exact ⟨error, refused⟩
  · rintro ⟨error, refused⟩
    exact ⟨config, input, error, asked, input_eq, refused⟩

/-- Work that does not end well has done nothing to the files but by the log. It ends by itself exactly
if the input is refused, and then nothing was printed or drawn. -/
theorem work_of_failed (isOpen : session.journal.IsOpen)
    (plain : File.Path.IsPlain session.files.current) (asked : arguments.AskFor config)
    (ended : work host .available arguments config session = (last, ending))
    (failed : ending ≠ .exit 0) :
    session.OnlyLogs last ∧
      ((∃ cause, ending = .broken cause) ∧ ¬ arguments.InputRefused session.files ∨
        ending = .exit 1 ∧ arguments.InputRefused session.files ∧
          last.printed = session.printed ∧ last.renderings = session.renderings) := by
  cases input_eq : arguments.input with
  | none =>
    obtain ⟨rfl, rfl⟩ := Prod.mk.inj ((work_of_no_input input_eq).symm.trans ended)
    refine ⟨Session.onlyLogs_of_continues (.refl session.journal) rfl rfl, .inl ⟨⟨_, rfl⟩, ?_⟩⟩
    rintro ⟨_, named, _, _, named_eq, _⟩
    simp [input_eq] at named_eq
  | some input =>
    rw [Arguments.inputRefused_iff asked input_eq]
    cases converted : (arguments.convert config session.files input).result with
    | error failure =>
      obtain ⟨left, onlyLogs, same, ⟨error, rfl, refused⟩ | ⟨fault, rfl, broken⟩⟩ :=
        work_of_error host .available input_eq converted
      · obtain ⟨rfl, rfl⟩ := Prod.mk.inj (refused.symm.trans ended)
        exact ⟨onlyLogs, .inr ⟨rfl, ⟨error, rfl⟩, same⟩⟩
      · obtain ⟨rfl, rfl⟩ := Prod.mk.inj (broken.symm.trans ended)
        exact ⟨onlyLogs, .inl ⟨⟨_, rfl⟩, by simp⟩⟩
    | ok dfa =>
      rcases work_of_converted host isOpen plain input_eq converted with
        ⟨left, cause, broken, onlyLogs⟩ | ⟨_, _, _, _, finished, _⟩
      · obtain ⟨rfl, rfl⟩ := Prod.mk.inj (broken.symm.trans ended)
        exact ⟨onlyLogs, .inl ⟨⟨cause, rfl⟩, by simp⟩⟩
      · obtain ⟨_, rfl⟩ := Prod.mk.inj (finished.symm.trans ended)
        exact absurd rfl failed

/-- The settings are refused exactly if the arguments ask for none that are valid. -/
theorem Arguments.exists_config_eq_error_iff :
    (∃ fault, arguments.config = .error fault) ↔ ∀ config, ¬ arguments.AskFor config := by
  simp only [← config_eq_ok_iff]
  cases arguments.config <;> simp

theorem logFile?_eq (read : Arguments.read words = .ok arguments) (current : Location) :
    logFile? words current = arguments.logSetup.location? current := by
  rw [logFile?, read]

/-- Starting the log changes no file but the log file, also if it fails. -/
theorem leftByLog_of_setUp {result : Except Log.SetupFault Unit}
    (read : Arguments.read words = .ok arguments) (plain : File.Path.IsPlain files.current)
    (started : (Journal.ofFiles files).setUp arguments.logSetup = (last.journal, result)) :
    LeftByLog words files last := by
  have effect := Journal.effect_setUp (Journal.ofFiles files) plain arguments.logSetup
  have records_eq := Journal.records_setUp (Journal.ofFiles files) arguments.logSetup
  rw [started] at effect records_eq
  have unwritten : last.files =
      Log.writeLines last.files (logFile? words files.current) last.journal.records := by
    rw [records_eq]
    cases logFile? words files.current <;> rfl
  refine ⟨⟨last.files, ?_, effect.contents_eq, unwritten ▸ .refl _ _⟩, ?_⟩
  · rw [logFile?_eq read]
    exact effect.changes
  · refine effect.changes.within fun location member => ⟨location, ?_, .inl rfl⟩
    rw [logFile?_eq read]
    exact Option.mem_toList.mp member

theorem leftByLog_of_onlyLogs (read : Arguments.read words = .ok arguments)
    (opened : arguments.Opened files session.journal) (onlyLogs : session.OnlyLogs last) :
    LeftByLog words files last := by
  obtain ⟨logged, changes⟩ := opened.of_onlyLogs onlyLogs
  rw [Arguments.LoggedApart, ← logFile?_eq read] at logged
  rw [Arguments.logRegion, ← logFile?_eq read] at changes
  exact ⟨logged, changes⟩

end Stages

/-- A run that cannot read its arguments ends at once. -/
theorem run_of_stop {stop : Stop} (unread : Arguments.read words = .error stop)
    (host : Host) (tool : DrawingTool) (files : Tree) :
    ∃ code, run host tool files words = (Session.ofFiles files, .usage code) := by
  rw [run, unread]
  cases stop
  · exact ⟨0, rfl⟩
  · exact ⟨2, rfl⟩

theorem leftByLog_of_stop {stop : Stop} (unread : Arguments.read words = .error stop)
    (files : Tree) : LeftByLog words files (Session.ofFiles files) := by
  have unlogged : logFile? words files.current = none := by rw [logFile?, unread]
  refine ⟨?_, .refl _ _⟩
  rw [unlogged]
  exact ⟨files, .refl _ _, fun _ => rfl, .refl _ _⟩

theorem failsCleanly_of_stop {stop : Stop} (unread : Arguments.read words = .error stop)
    (ended : run host tool files words = (last, ending)) :
    FailsCleanly words files last ending := by
  obtain ⟨code, stopped⟩ := run_of_stop unread host tool files
  obtain ⟨rfl, rfl⟩ := Prod.mk.inj (stopped.symm.trans ended)
  exact
    { cause := .usage unread
      leftByLog := leftByLog_of_stop unread files
      printed_eq := nofun
      renderings_eq := nofun }

/-- Work that starts with a fresh log and valid settings fails cleanly if it fails. -/
theorem failsCleanly_of_work (read : Arguments.read words = .ok arguments)
    (plain : File.Path.IsPlain files.current)
    (started : (Journal.ofFiles files).setUp arguments.logSetup = (session.journal, .ok ()))
    (fresh : session.printed = "" ∧ session.renderings = []) (asked : arguments.AskFor config)
    (ended : work host .available arguments config session = (last, ending))
    (failed : ending ≠ .exit 0) : FailsCleanly words files last ending := by
  have opened := opened_of_setUp plain started
  obtain ⟨onlyLogs, ending_cases⟩ :=
    work_of_failed opened.isOpen (opened.changes.current_eq ▸ plain) asked ended failed
  have leftByLog := leftByLog_of_onlyLogs read opened onlyLogs
  rcases ending_cases with ⟨⟨cause, rfl⟩, accepted⟩ | ⟨rfl, refused, printed_eq, renderings_eq⟩
  · exact
      { cause := .work read started asked accepted
        leftByLog
        printed_eq := nofun
        renderings_eq := nofun }
  · exact
      { cause := .input read started refused
        leftByLog
        printed_eq := fun _ _ => printed_eq.trans fresh.1
        renderings_eq := fun _ _ => renderings_eq.trans fresh.2 }

/-- A run without success changes no file but the log file and, if that is filled, its backups, and
adds no other one, whatever it fails for. The current folder is named as systems name it, from the root
down. -/
theorem failsCleanly_of_run (plain : File.Path.IsPlain files.current)
    (ended : run host .available files words = (last, ending)) (failed : ending ≠ .exit 0) :
    FailsCleanly words files last ending := by
  cases read : Arguments.read words with
  | error stop => exact failsCleanly_of_stop read ended
  | ok arguments =>
    rcases run_cases read host .available files with ⟨left, fault, unstarted, broken⟩ |
      ⟨session, started, fresh, ⟨fault, invalid, refused⟩ | ⟨config, valid, working⟩⟩
    · obtain ⟨rfl, rfl⟩ := Prod.mk.inj (broken.symm.trans ended)
      exact
        { cause := .log read unstarted
          leftByLog := leftByLog_of_setUp read plain unstarted
          printed_eq := nofun
          renderings_eq := nofun }
    · have leftByLog := leftByLog_of_setUp read plain started
      obtain ⟨rfl, rfl⟩ := Prod.mk.inj (refused.symm.trans ended)
      exact
        { cause := .settings read started (Arguments.exists_config_eq_error_iff.mp ⟨fault, invalid⟩)
          leftByLog := ⟨leftByLog.logged, leftByLog.changes⟩
          printed_eq := fun _ _ => fresh.1
          renderings_eq := fun _ _ => fresh.2 }
    · have asked := Arguments.config_eq_ok_iff.mp valid
      exact failsCleanly_of_work read plain started fresh asked (working.symm.trans ended) failed

/-- A result that cannot be put in its place breaks the run off. -/
theorem exists_finish_of_refused {dfa : DFA} {path : String} {fault : File.ReplacementFault}
    {text : String} (written : dfa.toText? = some text)
    (refused : (session.files.replaceFile refusals path text.toUTF8).2 = .error fault) :
    ∃ last, finish refusals session dfa (some path) = (last, .broken (.output fault)) := by
  simp only [finish, DFA.writeFile, written, refused]
  exact ⟨_, rfl⟩

/-- Without a log file and a picture, a run breaks off if the input can be converted and the output
cannot be replaced. -/
theorem exists_run_of_refused {dfa : DFA} {input path : String} {fault : File.ReplacementFault}
    (read : Arguments.read words = .ok arguments)
    (starts : (Journal.ofFiles files).setUp arguments.logSetup = (journal, .ok ()))
    (unlogged : journal.sinks.file = none) (undrawn : nonempty arguments.graph = none)
    (asked : arguments.AskFor config) (input_eq : arguments.input = some input)
    (output_eq : arguments.output = some path)
    (converted : (arguments.convert config journal.files input).result = .ok dfa)
    (refuses : (journal.files.replaceFile host.refusals path ByteArray.empty).2 = .error fault) :
    ∃ last, run host tool files words = (last, .broken (.output fault)) := by
  obtain ⟨session, rfl, finishing⟩ :=
    exists_run_eq_finish host tool read starts undrawn asked input_eq converted
  obtain ⟨_, _, _, _, made⟩ := Arguments.convert_eq_ok_iff.mp converted
  obtain ⟨text, written⟩ := NFA.exists_toText?_of_convert made
  let before := session.logAll host (arguments.convert config session.journal.files input).events
  have files_eq : before.files = session.files := Session.files_logAll host unlogged _
  have refused : (before.files.replaceFile host.refusals path text.toUTF8).2 = .error fault := by
    rw [files_eq, File.Tree.replaceFile_result_eq _ _ _ _ ByteArray.empty]
    exact refuses
  rw [finishing, output_eq]
  exact exists_finish_of_refused written refused

private def folderText : String := "A B\nA\nB\nA 0 B\nB 1 A\n"

/-- The output is a folder, which shows only when the complete result is moved to its place. -/
private def folderFiles : Tree :=
  ((Tree.ofCurrent ["work"]).put ["work", "a.txt"] (.file folderText.toUTF8)).put
    ["work", "out"] .folder

private def folderWords : List String := ["a.txt", "./out", "--policy", "total", "-v"]

private def folderArguments : Arguments where
  input := some "a.txt"
  output := some "./out"
  alphabet := ["0", "1"]
  policy := some .total
  lenient := false
  maxStates := some 16
  graph := none
  showSubsets := false
  verbose := true
  logFile := none

private def folderRead : NFA where
  states := ["A", "B"]
  initial := "A"
  finals := ["B"]
  edges := Table.ofList [(("A", "0"), {"B"}), (("B", "1"), {"A"})]
  sources_declared := by decide +kernel

theorem failsCleanly_of_run_folder : File.Path.IsPlain folderFiles.current ∧ ∃ last,
    run steadyHost .available folderFiles folderWords =
        (last, .broken (.output ⟨.move, .isFolder⟩)) ∧
      FailsCleanly folderWords folderFiles last (.broken (.output ⟨.move, .isFolder⟩)) := by
  have plain : File.Path.IsPlain folderFiles.current := by
    rintro name (_ | ⟨_, ⟨⟩⟩)
    exact ⟨by decide, by decide⟩
  obtain ⟨config, asked⟩ : ∃ config, folderArguments.AskFor config :=
    ⟨_, Arguments.config_eq_ok_iff.mp rfl⟩
  have read : Arguments.read folderWords = .ok folderArguments := by decide +kernel
  have starts : (Journal.ofFiles folderFiles).setUp folderArguments.logSetup =
      (⟨folderFiles, "", ⟨.debug, true, none⟩, []⟩, .ok ()) := rfl
  have readable : folderFiles.read "a.txt" = .ok folderText.toUTF8 := by decide +kernel
  have reads : (NFA.ofText config.strict (Text.withLineFeeds folderText)).result =
      .ok folderRead := by
    rw [asked.strict_eq]
    decide +kernel
  have within : ¬ folderRead.Exceeds config := by
    rintro ⟨limit, limited, exceeded⟩
    have limit_eq : (16 : Int) = limit := Option.some.inj (asked.limit_eq limit limited)
    change limit < 2 at exceeded
    omega
  obtain ⟨dfa, converted⟩ := Arguments.exists_convert_of_read readable reads within
  have refuses : (folderFiles.replaceFile steadyHost.refusals "./out" ByteArray.empty).2 =
      .error ⟨.move, .isFolder⟩ := by decide +kernel
  obtain ⟨last, ended⟩ :=
    exists_run_of_refused read starts rfl rfl asked rfl rfl converted refuses
  exact ⟨plain, last, ended, failsCleanly_of_run plain ended nofun⟩

private def refusedText : String := "A B\nA\nB\nbad\nA 0 C\n"

/-- A run that refuses its input has filled its log before, and so has changed another file than the
log file. -/
theorem failed_run_backs_up_full_log :
    Arguments.read fullLogWords = .ok fullLogArguments ∧
      File.Path.IsPlain (fullLogFiles refusedText).current ∧
      ∃ last, run steadyHost .available (fullLogFiles refusedText) fullLogWords =
          (last, .exit 1) ∧
        ¬ ChangesOnly (fullLogArguments.logLocations (fullLogFiles refusedText).current)
          (fullLogFiles refusedText) last.files := by
  have read := read_fullLogWords
  obtain ⟨config, asked⟩ : ∃ config, fullLogArguments.AskFor config :=
    ⟨_, Arguments.config_eq_ok_iff.mp rfl⟩
  have readable : (fullLogFiles refusedText).read "a.txt" = .ok refusedText.toUTF8 := rfl
  have unread : (NFA.ofText config.strict (Text.withLineFeeds refusedText)).result =
      .error (.undeclaredState 5 "C") := by
    rw [asked.strict_eq]
    decide +kernel
  have skips : (NFA.ofText config.strict (Text.withLineFeeds refusedText)).warnings =
      [.lineSkipped 4 "bad"] := by
    rw [asked.strict_eq]
    decide +kernel
  obtain ⟨refused, warned⟩ : _ ∧ (fullLogArguments.convert config _ "a.txt").warnings = _ :=
    Arguments.convert_of_unread readable unread
  rw [skips] at warned
  rcases run_cases_of_askFor read asked steadyHost .available (fullLogFiles refusedText) with
    ⟨_, _, failed, _⟩ | ⟨session, started, working⟩
  · simp [setUp_fullLog] at failed
  have journal_eq : session.journal = fullLogJournal refusedText :=
    (Prod.mk.inj ((setUp_fullLog refusedText).symm.trans started)).1.symm
  have files_eq : session.files = fullLogFiles refusedText := by rw [Session.files, journal_eq]; rfl
  rw [← files_eq] at refused warned
  rw [work_eq_complain steadyHost .available rfl refused] at working
  have logged : ChangesOnly [] (fullLogWritten refusedText (.lineSkipped 4 "bad"))
      (session.logAll steadyHost
        (fullLogArguments.convert config session.files "a.txt").events).files := by
    rw [files_logAll_fullLog journal_eq warned]
    exact .refl _ _
  exact ⟨read, isPlain_fullLogFiles refusedText, _, working,
    not_changesOnly_of_fullLogWritten logged (by decide) List.not_mem_nil⟩

end Determinizer.CommandLine
