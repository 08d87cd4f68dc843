import Determinizer.CommandLine.Arguments
import Determinizer.Conversion
import Determinizer.DFA.File
import Determinizer.DFA.Rendering
import Determinizer.File.Creation
import Determinizer.Log.Journal
import Determinizer.NFA.File

/-! # A run of the command line

A run reads the arguments, starts the log, checks the settings, reads and converts the automaton,
draws it if asked to and writes the result last. So an error before that leaves the output as it
was, unless the log or the source of the graph is written in its place. All that a run does is a
value: the files after it, what it printed and drew, and how it ended. What it takes from the system,
such as the time, is given to it.
-/

namespace Determinizer.CommandLine

open File (Tree)
open Log (Journal)

/-- What a run takes from the system it is on: the steps of a replacement that are refused, and the
time and place with which each record is stamped. The records of a run are counted from zero. -/
structure Host where
  refusals : File.Refusals
  stamp : Nat → Event → Log.Stamp

/-- Whether the drawing program is there. Without it the text of the graph is left at the path of the
picture without its extension. That text is not made here: it comes with the way to the drawing
program. -/
inductive DrawingTool where
  | available
  | missing (source : Dot.Graph → String)

/-- Why a run breaks off without an exit code of its own. -/
inductive Break where
  | logSetup (fault : Log.SetupFault)
  | input (fault : File.Fault)
  /-- The source of the graph cannot be saved. -/
  | graph (fault : File.Fault)
  | output (fault : File.ReplacementFault)
  /-- A file name is missing although a word stood for it. -/
  | noFileName
  | noInitialState
  deriving DecidableEq, Repr

def Break.message : Break → String
  | .logSetup (.folder fault) => fault.text
  | .logSetup (.file fault) => fault.text
  | .logSetup (.unknownLevel level) => level
  | .input fault => fault.text
  | .graph fault => fault.text
  | .output fault => fault.fault.text
  | .noFileName => "no file name"
  | .noInitialState => "no initial state"

inductive Ending where
  | exit (code : Nat)
  /-- The arguments ended the run: misuse, or a request for help. -/
  | usage (code : Nat)
  | broken (cause : Break)
  deriving DecidableEq, Repr

/-- What a run leaves behind. The console of the journal holds what was printed as errors. -/
structure Session where
  journal : Journal
  printed : String
  renderings : List DFA.Rendering

namespace Session

def ofFiles (files : Tree) : Session := ⟨Journal.ofFiles files, "", []⟩

def files (session : Session) : Tree := session.journal.files

/-- Logs events in order. -/
def logAll (host : Host) (session : Session) (events : List Event) : Session :=
  { session with
    journal := events.foldl
      (fun journal event => journal.log (event.record (host.stamp journal.records.length event)))
      session.journal }

def withFiles (session : Session) (files : Tree) : Session :=
  { session with journal := { session.journal with files } }

/-- Ends a run with an error message. -/
def complain (session : Session) (message : String) (code : Nat) : Session × Ending :=
  ({ session with journal := session.journal.print ("Ошибка: " ++ message ++ "\n") }, .exit code)

end Session

/-- What is said when the drawing program is missing. -/
def missingToolMessage : String :=
  "failed to execute PosixPath('dot'), make sure the Graphviz executables are on your systems' PATH"

/-- A text that counts only if it is not empty. -/
def nonempty (text : Option String) : Option String := text.filter (!·.isEmpty)

namespace Arguments

/-- The least level that a run logs. -/
def logLevel (arguments : Arguments) : Log.Level :=
  if arguments.verbose then .debug
  else if arguments.showSubsets then .info
  else .warning

def logSetup (arguments : Arguments) : Log.Setup :=
  ⟨arguments.logLevel.toText, nonempty arguments.logFile, true⟩

/-- The name of the policy asked for; where there is none, a list of no names. -/
def policyText (arguments : Arguments) : String :=
  (arguments.policy.map Policy.toText).getD (Text.quotedList [])

/-- The settings asked for; a limit of zero is none. -/
def config (arguments : Arguments) : Except Config.Fault Config :=
  Config.make arguments.alphabet arguments.policyText (!arguments.lenient)
    (arguments.maxStates.filter (· ≠ 0))

/-- The paths that a run may read or write. -/
def paths (arguments : Arguments) : List String :=
  arguments.input.toList ++ arguments.output.toList ++ (nonempty arguments.logFile).toList ++
    (nonempty arguments.graph).toList.map File.Path.withoutExtension

/-- Reads and converts the automaton of a file, reporting on the way. -/
def convert (arguments : Arguments) (config : Config) (files : Tree) (input : String) :
    Outcome Failure DFA := do
  let nfa ← NFA.ofFile files config.strict input
  .report [.automatonRead nfa.states.length nfa.initial]
  let dfa ← (nfa.convert config).mapError Failure.error
  .report
    ((if arguments.showSubsets then [.subsetsListed (nfa.subsets config.policy)] else []) ++
      [.automatonMade dfa.labels dfa.initial])
  return dfa

end Arguments

/-- Draws the automaton: the session after it, or how the run ends instead. -/
def draw (host : Host) (tool : DrawingTool) (session : Session) (dfa : DFA) (path : String) :
    Except (Session × Ending) Session :=
  match dfa.rendering? path DFA.defaultFormat with
  | none => .error (session, .broken .noInitialState)
  | some rendering =>
    match tool with
    | .available =>
      .ok
        ({ session with renderings := session.renderings ++ [rendering] }.logAll host
          [.graphSaved rendering.picture])
    | .missing source =>
      let (files, saved) := session.files.save rendering.path (source rendering.graph).toUTF8
      match saved with
      | .error fault => .error (session.withFiles files, .broken (.graph fault))
      | .ok () => .error ((session.withFiles files).complain missingToolMessage 1)

/-- Writes the result and says so. -/
def finish (refusals : File.Refusals) (session : Session) (dfa : DFA) (output : Option String) :
    Session × Ending :=
  match output with
  | none => (session, .broken .noFileName)
  | some output =>
    let (files, result) := dfa.writeFile refusals session.files output
    let session := session.withFiles files
    match result with
    | .error .noInitialState => (session, .broken .noInitialState)
    | .error (.file fault) => (session, .broken (.output fault))
    | .ok () =>
      ({ session with
          printed := session.printed ++
            "Преобразование завершено. Результат записан в " ++ output ++ "\n" }, .exit 0)

/-- Converts, draws and writes with checked settings. -/
def work (host : Host) (tool : DrawingTool) (arguments : Arguments) (config : Config)
    (session : Session) : Session × Ending :=
  match arguments.input with
  | none => (session, .broken .noFileName)
  | some input =>
    let outcome := arguments.convert config session.files input
    let session := session.logAll host outcome.events
    match outcome.result with
    | .error (.error error) => session.complain error.message 1
    | .error (.fault fault) => (session, .broken (.input fault))
    | .ok dfa =>
      match nonempty arguments.graph with
      | none => finish host.refusals session dfa arguments.output
      | some path =>
        match draw host tool session dfa path with
        | .error ended => ended
        | .ok session => finish host.refusals session dfa arguments.output

/-- Runs the command line on some files. -/
def run (host : Host) (tool : DrawingTool) (files : Tree) (words : List String) :
    Session × Ending :=
  let session := Session.ofFiles files
  match Arguments.read words with
  | .error .help => (session, .usage 0)
  | .error .misuse => (session, .usage 2)
  | .ok arguments =>
    let (journal, started) := session.journal.setUp arguments.logSetup
    let session := { session with journal }
    match started with
    | .error fault => (session, .broken (.logSetup fault))
    | .ok () =>
      match arguments.config with
      | .error fault => session.complain fault.message 2
      | .ok config => work host tool arguments config session

end Determinizer.CommandLine
