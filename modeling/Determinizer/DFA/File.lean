import Determinizer.DFA.Printer
import Determinizer.File.Replacement

/-! # Automata to files -/

namespace Determinizer.DFA

/-- Why an automaton is not written. -/
inductive WriteFault where
  | noInitialState
  | file (fault : File.ReplacementFault)
  deriving DecidableEq, Repr

/-- Writes the text form of an automaton to a file, as a whole or not at all. -/
def writeFile (refusals : File.Refusals) (dfa : DFA) (files : File.Tree) (path : String) :
    File.Tree × Except WriteFault Unit :=
  match dfa.toText? with
  | none => (files, .error .noInitialState)
  | some text =>
    let (after, result) := files.replaceFile refusals path text.toUTF8
    (after, result.mapError .file)

end Determinizer.DFA
