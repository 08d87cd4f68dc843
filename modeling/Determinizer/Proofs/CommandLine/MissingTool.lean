import Determinizer.Proofs.CommandLine.FailedRun
import Determinizer.Proofs.File.Saving

/-! # Runs without the drawing program

A run that is to draw a picture and does not find the drawing program ends before the result is
written. It leaves the text of the graph at the path of the picture without its extension, and nothing
else but the log. So the input and the output stay as they were unless that path leads to one of them:
then the file there is replaced by the text of the graph. How a graph is written as text is up to the
drawing program, and nothing is assumed of it.
-/

namespace Determinizer

/-- What is converted can be drawn. -/
theorem NFA.exists_graph?_of_convert {nfa : NFA} {config : Config} {dfa : DFA}
    (converted : (nfa.convert config).result = .ok dfa) : ∃ drawing, dfa.graph? = some drawing := by
  obtain ⟨state, _, isInitial, _⟩ := (subsetAutomaton_of_convert converted).initial
  rw [DFA.graph?, isInitial, Option.map_some]
  exact ⟨_, rfl⟩

/-- The same file stands at the location in both trees, or none in either. -/
def File.Tree.SameFileAt (location : File.Location) (tree after : File.Tree) : Prop :=
  ∀ contents, after.node? location = some (.file contents) ↔
    tree.node? location = some (.file contents)

namespace CommandLine

open File (Location Tree)
open File.Tree (ChangesWithin SameFileAt)
open Log (Journal)

variable {host : Host} {source : Dot.Graph → String} {files : Tree} {words : List String}
  {arguments : Arguments} {config : Config} {session last : Session} {journal : Journal} {dfa : DFA}
  {input path graph text : String}

/-- The location at which the text of a graph is left that is to be drawn at a path. -/
def sourceLocation (current : Location) (graph : String) : Location :=
  File.Path.normalize current (File.Path.withoutExtension graph)

/-- A run has converted its input and left the text of the graph at the path of the picture without
its extension. But for that text, the files are as the log has left them. No other file but the log
file and, if that was filled, its backups has changed or been made. The current folder has moved only
with a backup. -/
structure Arguments.LeavesSource (arguments : Arguments) (files : Tree) (last : Session)
    (source : Dot.Graph → String) (graph text : String) : Prop where
  graph_eq : nonempty arguments.graph = some graph
  drawn : ∃ journal config input dfa,
    (Journal.ofFiles files).setUp arguments.logSetup = (journal, .ok ()) ∧
    arguments.AskFor config ∧ arguments.input = some input ∧
    (arguments.convert config journal.files input).result = .ok dfa ∧
    dfa.graph?.map source = some text
  stands : last.files.node? (sourceLocation last.files.current graph) = some (.file text.toUTF8)
  current_eq : ¬ arguments.logRegion files last.journal.records files.current →
    last.files.current = files.current
  logged : arguments.LoggedApart [sourceLocation last.files.current graph] files last
  changes : ChangesWithin
    (fun location => location = sourceLocation last.files.current graph ∨
      arguments.logRegion files last.journal.records location) files last.files

section Stages

/-- Without the drawing program, drawing ends the run once the text of the graph is saved. -/
theorem draw_missing_of_save {drawing : Dot.Graph} {after : Tree} (host : Host)
    (shown : dfa.graph? = some drawing)
    (saved : session.files.save (File.Path.withoutExtension graph) (source drawing).toUTF8 =
      (after, .ok ())) :
    ∃ last, draw host (.missing source) session dfa graph = .error (last, .exit 1) ∧
      last.files = after ∧ last.journal.records = session.journal.records := by
  have requested : dfa.rendering? graph DFA.defaultFormat =
      some ⟨File.Path.withoutExtension graph, DFA.defaultFormat, drawing⟩ := by
    rw [DFA.rendering?, shown, Option.map_some]
  have undrawn : draw host (.missing source) session dfa graph =
      .error ((session.withFiles after).complain missingToolMessage 1) := by
    simp only [draw, requested, saved]
  generalize missingToolMessage = message at undrawn
  exact ⟨_, undrawn, rfl, rfl⟩

/-- Without the drawing program a run ends where it draws: the text of the graph is saved at the path
without its extension, or the run breaks off. -/
theorem draw_missing_cases (host : Host) (source : Dot.Graph → String) (session : Session)
    (dfa : DFA) (graph : String) :
    (∃ last cause, draw host (.missing source) session dfa graph = .error (last, .broken cause)) ∨
      ∃ last text, dfa.graph?.map source = some text ∧
        draw host (.missing source) session dfa graph = .error (last, .exit 1) ∧
        session.files.save (File.Path.withoutExtension graph) text.toUTF8 = (last.files, .ok ()) ∧
        last.journal.records = session.journal.records := by
  cases shown : dfa.graph? with
  | none =>
    refine .inl ⟨session, .noInitialState, ?_⟩
    rw [draw, DFA.rendering?, shown, Option.map_none]
  | some drawing =>
    rcases saved : session.files.save (File.Path.withoutExtension graph) (source drawing).toUTF8 with
      ⟨after, fault | _⟩
    · refine .inl ⟨session.withFiles after, .graph fault, ?_⟩
      simp only [draw, DFA.rendering?, shown, Option.map_some, saved]
    · obtain ⟨last, undrawn, rfl, records_eq⟩ := draw_missing_of_save host shown saved
      exact .inr ⟨last, source drawing, rfl, undrawn, saved, records_eq⟩

/-- An input that is refused ends the run with exit code 1, with the drawing program or without. -/
theorem run_of_inputRefused (read : Arguments.read words = .ok arguments)
    (started : (Journal.ofFiles files).setUp arguments.logSetup = (journal, .ok ()))
    (refused : arguments.InputRefused journal.files) (host : Host) (tool : DrawingTool) :
    (run host tool files words).2 = .exit 1 := by
  obtain ⟨config, input, error, asked, input_eq, failed⟩ := refused
  rcases run_cases_of_askFor read asked host tool files with ⟨_, _, unstarted, _⟩ |
    ⟨session, again, working⟩
  · simp [started] at unstarted
  obtain rfl : journal = session.journal := (Prod.mk.inj (started.symm.trans again)).1
  rw [working, work_eq_complain host tool input_eq failed]
  rfl

/-- Work that ends with exit code 1 without the drawing program, on an input that is not refused,
has left the text of the graph. -/
theorem exists_save_of_work (isOpen : session.journal.IsOpen)
    (plain : File.Path.IsPlain session.files.current) (asked : arguments.AskFor config)
    (accepted : ¬ arguments.InputRefused session.files)
    (ended : work host (.missing source) arguments config session = (last, .exit 1)) :
    ∃ (input : String) (dfa : DFA) (graph text : String) (before : Session),
      arguments.input = some input ∧
      (arguments.convert config session.files input).result = .ok dfa ∧
      nonempty arguments.graph = some graph ∧ dfa.graph?.map source = some text ∧
      session.OnlyLogs before ∧
      before.files.save (File.Path.withoutExtension graph) text.toUTF8 = (last.files, .ok ()) ∧
      last.journal.records = before.journal.records := by
  cases input_eq : arguments.input with
  | none => simp [work_of_no_input input_eq] at ended
  | some input =>
    rw [Arguments.inputRefused_iff asked input_eq] at accepted
    cases converted : (arguments.convert config session.files input).result with
    | error failure =>
      obtain ⟨_, _, _, ⟨error, rfl, _⟩ | ⟨_, _, broken⟩⟩ :=
        work_of_error host (.missing source) input_eq converted
      · exact absurd ⟨error, converted⟩ accepted
      · simp [broken] at ended
    | ok dfa =>
      obtain ⟨_, logged⟩ := Session.exists_continues_logAll host session
        (arguments.convert config session.files input).events
      cases drawing : nonempty arguments.graph with
      | none =>
        rw [work_eq_finish input_eq converted drawing] at ended
        rcases finish_cases (logged.plain isOpen plain) host.refusals dfa arguments.output with
          ⟨_, _, broken, _⟩ | ⟨_, _, _, finished, _⟩
        · simp [broken] at ended
        · simp [finished] at ended
      | some graph =>
        -- Nothing is left that ends with exit code 1 but a text that was saved.
        rw [work, input_eq] at ended
        simp only [converted, drawing] at ended
        rcases draw_missing_cases host source
          (session.logAll host (arguments.convert config session.files input).events) dfa graph with
          ⟨_, _, broken⟩ | ⟨left, text, text_eq, undrawn, saved, records_eq⟩
        · simp [broken] at ended
        · simp only [undrawn] at ended
          obtain rfl := (Prod.mk.inj ended).1
          exact ⟨input, dfa, graph, text, _, rfl, converted, rfl, text_eq,
            Session.onlyLogs_of_continues logged rfl rfl, saved, records_eq⟩

end Stages

/-- A run that needs the drawing program and does not find it has left the text of the graph. -/
theorem leavesSource_of_run (read : Arguments.read words = .ok arguments)
    (plain : File.Path.IsPlain files.current)
    (ended : run host (.missing source) files words = (last, .exit 1))
    (needed : (run host .available files words).2 ≠ .exit 1) :
    ∃ graph text, arguments.LeavesSource files last source graph text := by
  rcases run_cases read host (.missing source) files with ⟨_, _, _, broken⟩ |
    ⟨session, started, _, ⟨_, _, refused⟩ | ⟨config, valid, working⟩⟩
  · simp [broken] at ended
  · simp [refused, Session.complain] at ended
  have asked := Arguments.config_eq_ok_iff.mp valid
  have opened := opened_of_setUp plain started
  have accepted : ¬ arguments.InputRefused session.files :=
    fun refused => needed (run_of_inputRefused read started refused host .available)
  have plainOpened : File.Path.IsPlain session.files.current := opened.changes.current_eq ▸ plain
  obtain ⟨input, dfa, graph, text, before, input_eq, converted, graph_eq, text_eq, onlyLogs, saved,
    records_eq⟩ := exists_save_of_work opened.isOpen plainOpened asked accepted
      (working.symm.trans ended)
  obtain ⟨_, earlier⟩ := opened.of_onlyLogs onlyLogs
  rw [← records_eq] at earlier
  obtain ⟨_, stands, later⟩ := File.Tree.effect_of_save saved
  rw [← later.current_eq] at stands later
  obtain ⟨logged, changes⟩ := opened.of_changesOnly onlyLogs records_eq later
  exact ⟨graph, text,
    { graph_eq
      drawn := ⟨session.journal, config, input, dfa, started, asked, input_eq, converted, text_eq⟩
      stands
      current_eq := fun unmoved => later.current_eq.trans (earlier.current_eq unmoved)
      logged
      changes }⟩

/-- The text of the graph is all that a run leaves which does not find the drawing program. The input
and the output, if they lie apart from what the log changes, are as before exactly if they do not stand
at the path of the picture without its extension, or held the text of the graph already. -/
theorem missing_tool_spares_iff (read : Arguments.read words = .ok arguments)
    (plain : File.Path.IsPlain files.current)
    (ended : run host (.missing source) files words = (last, .exit 1))
    (needed : (run host .available files words).2 ≠ .exit 1) :
    ∃ graph text, arguments.LeavesSource files last source graph text ∧
      ∀ path, arguments.input = some path ∨ arguments.output = some path →
        ¬ arguments.logRegion files last.journal.records
          (File.Path.normalize files.current path) →
        (SameFileAt (File.Path.normalize files.current path) files last.files ↔
          (File.Path.normalize files.current path = sourceLocation last.files.current graph →
            files.node? (File.Path.normalize files.current path) =
              some (.file text.toUTF8))) := by
  obtain ⟨graph, text, leaves⟩ := leavesSource_of_run read plain ended needed
  refine ⟨graph, text, leaves, fun path _ unlogged => ?_⟩
  by_cases hit : File.Path.normalize files.current path = sourceLocation last.files.current graph
  · rw [hit]
    constructor
    · intro same _
      exact (same _).mp leaves.stands
    · intro stood contents
      rw [stood rfl, leaves.stands]
  · refine iff_of_true (fun contents => ?_) fun same => absurd same hit
    exact leaves.changes.files _ (by simp [hit, unlogged]) contents

/-- Without a log file, a run that is to draw what its input is converted to fails for want of the
drawing program and for nothing else, if the text of the graph can be saved. -/
theorem run_missing_of_converted (read : Arguments.read words = .ok arguments)
    (plain : File.Path.IsPlain files.current)
    (starts : (Journal.ofFiles files).setUp arguments.logSetup = (journal, .ok ()))
    (unlogged : journal.sinks.file = none) (graph_eq : nonempty arguments.graph = some graph)
    (asked : arguments.AskFor config) (input_eq : arguments.input = some input)
    (converted : (arguments.convert config journal.files input).result = .ok dfa)
    (saves : (journal.files.save (File.Path.withoutExtension graph) ByteArray.empty).2 = .ok ())
    (host : Host) (source : Dot.Graph → String) :
    (∃ last, run host (.missing source) files words = (last, .exit 1)) ∧
      (run host .available files words).2 ≠ .exit 1 := by
  have run_eq (tool : DrawingTool) : ∃ session : Session, session.journal = journal ∧
      run host tool files words = work host tool arguments config session := by
    rcases run_cases_of_askFor read asked host tool files with ⟨_, _, failed, _⟩ |
      ⟨session, started, working⟩
    · simp [starts] at failed
    · exact ⟨session, (Prod.mk.inj (started.symm.trans starts)).1, working⟩
  obtain ⟨_, nfa, _, _, made⟩ := Arguments.convert_eq_ok_iff.mp converted
  constructor
  · obtain ⟨session, rfl, working⟩ := run_eq (.missing source)
    obtain ⟨drawing, shown⟩ := NFA.exists_graph?_of_convert made
    have converts : (arguments.convert config session.files input).result = .ok dfa := converted
    have logged := Session.files_logAll host unlogged
      (arguments.convert config session.files input).events
    have savesText := (File.Tree.save_result_eq session.files
      (File.Path.withoutExtension graph) (source drawing).toUTF8 _).trans saves
    rcases saved : session.files.save (File.Path.withoutExtension graph)
      (source drawing).toUTF8 with ⟨after, result⟩
    rw [saved] at savesText
    obtain rfl : result = .ok () := savesText
    obtain ⟨last, undrawn, _⟩ := draw_missing_of_save host shown (logged.symm ▸ saved)
    refine ⟨last, ?_⟩
    rw [working, work, input_eq]
    simp only [converts, graph_eq, undrawn]
  · obtain ⟨session, rfl, working⟩ := run_eq .available
    have opened := opened_of_setUp plain starts
    have plainOpened : File.Path.IsPlain session.files.current := opened.changes.current_eq ▸ plain
    rcases work_of_converted host opened.isOpen plainOpened input_eq converted with
      ⟨_, _, broken, _⟩ | ⟨_, _, _, _, finished, _⟩
    · simp [working, broken]
    · simp [working, finished]

private def loneText : String := "A\nA\nA\n"

private def undrawnFiles : Tree :=
  ((Tree.ofCurrent ["work"]).put ["work", "nfa"] (.file loneText.toUTF8)).put ["work", "dfa"]
    (.file "old\n".toUTF8)

/-- The text that the drawing program gives to the graph of the examples. -/
private def loneGraphText : String :=
  "// DFA\ndigraph \x7b\n\trankdir=LR\n\tA [shape=doublecircle]\n\t\"\" [shape=none]\n\t\"\" -> A\n\x7d\n"

private def loneSource : Dot.Graph → String := fun _ => loneGraphText

private def undrawnWords (graph : String) : List String := ["nfa", "dfa", "--graph", graph]

private def undrawnArguments (graph : String) : Arguments where
  input := some "nfa"
  output := some "dfa"
  alphabet := ["0", "1"]
  policy := some .sparse
  lenient := false
  maxStates := some 16
  graph := some graph
  showSubsets := false
  verbose := false
  logFile := none

private def loneRead : NFA where
  states := ["A"]
  initial := "A"
  finals := ["A"]
  edges := Table.ofList []
  sources_declared := by decide +kernel

private theorem isPlain_undrawnFiles : File.Path.IsPlain undrawnFiles.current := by
  rintro name (_ | ⟨_, ⟨⟩⟩)
  exact ⟨by decide, by decide⟩

/-- The runs of the examples fail for want of the drawing program. -/
private theorem run_undrawn
    (read : Arguments.read (undrawnWords graph) = .ok (undrawnArguments graph))
    (filled : nonempty (some graph) = some graph)
    (saves : (undrawnFiles.save (File.Path.withoutExtension graph) ByteArray.empty).2 = .ok ()) :
    (∃ last, run steadyHost (.missing loneSource) undrawnFiles (undrawnWords graph) =
        (last, .exit 1)) ∧
      (run steadyHost .available undrawnFiles (undrawnWords graph)).2 ≠ .exit 1 := by
  obtain ⟨config, asked⟩ : ∃ config, (undrawnArguments graph).AskFor config :=
    ⟨_, Arguments.config_eq_ok_iff.mp rfl⟩
  have starts : (Journal.ofFiles undrawnFiles).setUp (undrawnArguments graph).logSetup =
      (⟨undrawnFiles, "", ⟨.warning, true, none⟩, []⟩, .ok ()) := rfl
  have readable : undrawnFiles.read "nfa" = .ok loneText.toUTF8 := by decide +kernel
  have reads : (NFA.ofText config.strict (Text.withLineFeeds loneText)).result = .ok loneRead := by
    rw [asked.strict_eq]
    change (NFA.ofText true (Text.withLineFeeds loneText)).result = .ok loneRead
    decide +kernel
  have within : ¬ loneRead.Exceeds config := by
    rintro ⟨limit, limited, exceeded⟩
    have limit_eq : (16 : Int) = limit := Option.some.inj (asked.limit_eq limit limited)
    change limit < 1 at exceeded
    omega
  obtain ⟨dfa, converted⟩ := Arguments.exists_convert_of_read readable reads within
  exact run_missing_of_converted read isPlain_undrawnFiles starts rfl filled asked rfl converted
    saves steadyHost loneSource

private theorem sourceLocation_undrawn
    (leaves : (undrawnArguments graph).LeavesSource undrawnFiles last loneSource path text) :
    sourceLocation last.files.current path = sourceLocation ["work"] graph := by
  have graph_eq := Option.filter_eq_some_iff.mp leaves.graph_eq
  obtain rfl := Option.some.inj graph_eq.1
  rw [leaves.current_eq (Arguments.not_logRegion rfl)]
  rfl

theorem missing_tool_spares_iff_pictures :
    Arguments.read (undrawnWords "pictures/dfa.png") = .ok (undrawnArguments "pictures/dfa.png") ∧
      File.Path.IsPlain undrawnFiles.current ∧
      (run steadyHost .available undrawnFiles (undrawnWords "pictures/dfa.png")).2 ≠ .exit 1 ∧
      ∃ last,
        run steadyHost (.missing loneSource) undrawnFiles (undrawnWords "pictures/dfa.png") =
            (last, .exit 1) ∧
          SameFileAt ["work", "nfa"] undrawnFiles last.files ∧
          SameFileAt ["work", "dfa"] undrawnFiles last.files := by
  have read : Arguments.read (undrawnWords "pictures/dfa.png") =
      .ok (undrawnArguments "pictures/dfa.png") := by decide +kernel
  obtain ⟨⟨last, ended⟩, needed⟩ := run_undrawn read (by decide) (by decide +kernel)
  obtain ⟨graph, text, leaves, spared⟩ :=
    missing_tool_spares_iff read isPlain_undrawnFiles ended needed
  rw [sourceLocation_undrawn leaves] at spared
  refine ⟨read, isPlain_undrawnFiles, needed, last, ended, ?_, ?_⟩
  · exact (spared "nfa" (.inl rfl) (Arguments.not_logRegion rfl)).mpr
      fun same => absurd same (by decide)
  · exact (spared "dfa" (.inr rfl) (Arguments.not_logRegion rfl)).mpr
      fun same => absurd same (by decide)

/-- The picture is asked for beside the output, by the same name. Then the result that stood there
before is gone. -/
theorem missing_tool_replaces_output :
    Arguments.read (undrawnWords "dfa.png") = .ok (undrawnArguments "dfa.png") ∧
      File.Path.IsPlain undrawnFiles.current ∧
      (run steadyHost .available undrawnFiles (undrawnWords "dfa.png")).2 ≠ .exit 1 ∧
      ∃ last,
        run steadyHost (.missing loneSource) undrawnFiles (undrawnWords "dfa.png") =
            (last, .exit 1) ∧
          ¬ SameFileAt ["work", "dfa"] undrawnFiles last.files := by
  have read : Arguments.read (undrawnWords "dfa.png") = .ok (undrawnArguments "dfa.png") := by
    decide +kernel
  obtain ⟨⟨last, ended⟩, needed⟩ := run_undrawn read (by decide) (by decide +kernel)
  refine ⟨read, isPlain_undrawnFiles, needed, last, ended, fun same => ?_⟩
  obtain ⟨graph, text, leaves⟩ := leavesSource_of_run read isPlain_undrawnFiles ended needed
  have stood : undrawnFiles.node? ["work", "dfa"] = some (.file "old\n".toUTF8) := by
    rw [undrawnFiles, File.Tree.node?_put (List.cons_ne_nil _ _), if_pos rfl]
  have located : sourceLocation ["work"] "dfa.png" = ["work", "dfa"] := by decide
  have left := leaves.stands
  rw [sourceLocation_undrawn leaves, located] at left
  have stands := stood.symm.trans ((same _).mp left)
  obtain ⟨_, _, _, dfa, _, _, _, _, text_eq⟩ := leaves.drawn
  obtain ⟨_, _, rfl⟩ := Option.map_eq_some_iff.mp text_eq
  have bytes_eq : "old\n".toUTF8 = loneGraphText.toUTF8 :=
    File.Node.file.inj (Option.some.inj stands)
  exact absurd bytes_eq (by decide +kernel)

end CommandLine

end Determinizer
